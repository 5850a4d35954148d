/-!
# Rules of the grammar

The constructs of Decaf that can be recognized on their own. A plain rule stands for itself. A
graded rule is read at a binding power, which says where it has to stop.
-/

namespace Decaf

/-- The rules that need nothing but the tokens. -/
inductive Rule where
  | declaration
  | statement
  | variableStatement
  | block
  | ifStatement
  | whileStatement
  | forStatement
  | returnStatement
  | jumpStatement
  | printStatement
  | atom
  | signed
  | grouping
  | arguments
  | keywordType
deriving DecidableEq, Repr

/-- The rules that are read at a binding power. -/
inductive GradedRule where
  | expression
  | binary
  | assignment
  | call
  | index
  | member
  | type
  | arrayType
deriving DecidableEq, Repr

end Decaf
