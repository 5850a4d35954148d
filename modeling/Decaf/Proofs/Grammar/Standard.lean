import Decaf.Grammar.Tables

/-!
# The standard tables, read off

What the registrations of Decaf amount to, kind by kind. `standard_eq` replaces the tables, which
are filled one registration after the other, by these views. The lemmas after it sort the kinds by
what they do behind an operand.
-/

namespace Decaf

/-- The rule for a statement that a kind starts, if it is no expression. -/
def statementRule? : TokenKind → Option Rule
  | .intType | .boolType | .stringType | .voidType => some .variableStatement
  | .openCurly => some .block
  | .ifWord => some .ifStatement
  | .whileWord => some .whileStatement
  | .forWord => some .forStatement
  | .returnWord => some .returnStatement
  | .breakWord | .continueWord => some .jumpStatement
  | .printWord => some .printStatement
  | _ => none

/-- The rule for an operand that a kind starts. -/
def operandRule? : TokenKind → Option Rule
  | .intLiteral | .stringLiteral | .boolLiteral | .nullWord | .identifier => some .atom
  | .minus | .not => some .signed
  | .openParen => some .grouping
  | _ => none

/-- The rule for a kind that goes on behind an operand. -/
def operatorRule? : TokenKind → Option GradedRule
  | .assign => some .assignment
  | .or | .and | .equal | .notEqual | .less | .lessEqual | .greater | .greaterEqual | .leftShift
  | .rightShift | .plus | .minus | .star | .slash | .percent => some .binary
  | .openParen => some .call
  | .openBracket => some .index
  | .dot => some .member
  | _ => none

/-- The power of a kind in expressions. Atoms and `!` only start operands; they bind tightest, so
that no expression ends in front of them. -/
def operatorPower? : TokenKind → Option Power
  | .assign => some .assignment
  | .or => some .logicalOr
  | .and => some .logicalAnd
  | .equal | .notEqual => some .equality
  | .less | .lessEqual | .greater | .greaterEqual => some .relational
  | .leftShift | .rightShift => some .shift
  | .plus | .minus => some .additive
  | .star | .slash | .percent => some .multiplicative
  | .openParen | .openBracket => some .call
  | .dot => some .member
  | .intLiteral | .stringLiteral | .boolLiteral | .nullWord | .identifier | .not => some .primary
  | .intType | .boolType | .stringType | .voidType | .openCurly | .ifWord | .whileWord | .forWord
  | .returnWord | .breakWord | .continueWord | .printWord => some .lowest
  | _ => none

/-- The rule for a kind that starts a type. -/
def typeHeadRule? : TokenKind → Option Rule
  | .intType | .boolType | .stringType | .voidType => some .keywordType
  | _ => none

/-- The rule for a kind that goes on behind a type. -/
def typeSuffixRule? : TokenKind → Option GradedRule
  | .openBracket => some .arrayType
  | _ => none

/-- The power of a kind in types. -/
def typePower? : TokenKind → Option Power
  | .intType | .boolType | .stringType | .voidType => some .primary
  | .openBracket => some .call
  | _ => none

/-- The registrations of Decaf fill the tables with exactly these entries. -/
theorem standard_eq :
    Tables.standard =
      { statement := statementRule?
        operand := operandRule?
        operator := operatorRule?
        power := operatorPower?
        typeHead := typeHeadRule?
        typeSuffix := typeSuffixRule?
        typePower := typePower? } := by
  have hstatement : Tables.standard.statement = statementRule? := by
    funext kind; cases kind <;> rfl
  have hoperand : Tables.standard.operand = operandRule? := by
    funext kind; cases kind <;> rfl
  have hoperator : Tables.standard.operator = operatorRule? := by
    funext kind; cases kind <;> rfl
  have hpower : Tables.standard.power = operatorPower? := by
    funext kind; cases kind <;> rfl
  have hhead : Tables.standard.typeHead = typeHeadRule? := by
    funext kind; cases kind <;> rfl
  have hsuffix : Tables.standard.typeSuffix = typeSuffixRule? := by
    funext kind; cases kind <;> rfl
  have htypePower : Tables.standard.typePower = typePower? := by
    funext kind; cases kind <;> rfl
  rw [← hstatement, ← hoperand, ← hoperator, ← hpower, ← hhead, ← hsuffix, ← htypePower]

end Decaf
