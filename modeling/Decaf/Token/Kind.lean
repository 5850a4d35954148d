/-!
# Kinds of token

A token's kind is what the grammar sees of it. This module lists the kinds of Decaf, the symbol
that spells an operator or punctuation kind, and the label under which a kind is shown to a
reader of a token listing or of a syntax error.
-/

namespace Decaf

/-- The kinds of token. `endOfInput` stands past the last token of a file and is never scanned. -/
inductive TokenKind where
  | endOfInput
  | identifier
  | intLiteral
  | stringLiteral
  | boolLiteral
  | openBracket
  | closeBracket
  | openCurly
  | closeCurly
  | openParen
  | closeParen
  | comma
  | semicolon
  | dot
  | assign
  | equal
  | not
  | notEqual
  | less
  | lessEqual
  | greater
  | greaterEqual
  | leftShift
  | rightShift
  | or
  | and
  | plus
  | minus
  | star
  | slash
  | percent
  | boolType
  | breakWord
  | continueWord
  | elseWord
  | externWord
  | forWord
  | funcWord
  | ifWord
  | intType
  | nullWord
  | packageWord
  | printWord
  | returnWord
  | stringType
  | varWord
  | voidType
  | whileWord
deriving DecidableEq, Repr

namespace TokenKind

/-- Every kind, in the order of the declaration. -/
def all : List TokenKind :=
  [endOfInput, identifier, intLiteral, stringLiteral, boolLiteral, openBracket, closeBracket,
    openCurly, closeCurly, openParen, closeParen, comma, semicolon, dot, assign, equal, not,
    notEqual, less, lessEqual, greater, greaterEqual, leftShift, rightShift, or, and, plus, minus,
    star, slash, percent, boolType, breakWord, continueWord, elseWord, externWord, forWord,
    funcWord, ifWord, intType, nullWord, packageWord, printWord, returnWord, stringType, varWord,
    voidType, whileWord]

/-- The list `all` leaves no kind out. -/
theorem mem_all (kind : TokenKind) : kind ∈ all := by
  cases kind <;> decide

/-- The name under which a kind is listed. -/
def name : TokenKind → String
  | endOfInput => "EOF"
  | identifier => "Identifier"
  | intLiteral => "IntLiteral"
  | stringLiteral => "StringLiteral"
  | boolLiteral => "BoolLiteral"
  | openBracket => "OpenBracket"
  | closeBracket => "CloseBracket"
  | openCurly => "OpenCurly"
  | closeCurly => "CloseCurly"
  | openParen => "OpenParen"
  | closeParen => "CloseParen"
  | comma => "Comma"
  | semicolon => "Semicolon"
  | dot => "Dot"
  | assign => "Assign"
  | equal => "Equal"
  | not => "Not"
  | notEqual => "NotEqual"
  | less => "Less"
  | lessEqual => "LessEqual"
  | greater => "Greater"
  | greaterEqual => "GreaterEqual"
  | leftShift => "LeftShift"
  | rightShift => "RightShift"
  | or => "Or"
  | and => "And"
  | plus => "Plus"
  | minus => "Minus"
  | star => "Star"
  | slash => "Slash"
  | percent => "Percent"
  | boolType => "Bool"
  | breakWord => "Break"
  | continueWord => "Continue"
  | elseWord => "Else"
  | externWord => "Extern"
  | forWord => "For"
  | funcWord => "Func"
  | ifWord => "If"
  | intType => "Int"
  | nullWord => "Null"
  | packageWord => "Package"
  | printWord => "Print"
  | returnWord => "Return"
  | stringType => "StringType"
  | varWord => "Var"
  | voidType => "Void"
  | whileWord => "While"

/-- The kind listed under a name. -/
def ofName? (text : String) : Option TokenKind :=
  all.find? fun kind ↦ kind.name = text

/-- Every kind is listed under its name. -/
theorem of_name_name (kind : TokenKind) : ofName? kind.name = some kind := by
  have hall : ∀ kind ∈ all, ofName? kind.name = some kind := by
    decide +kernel
  exact hall kind kind.mem_all

/-- The kind listed under a name is the one that has it. -/
theorem of_name_eq_some {text : String} {kind : TokenKind} :
    ofName? text = some kind ↔ kind.name = text := by
  constructor
  · intro h
    unfold ofName? at h
    simpa using List.find?_some h
  · rintro rfl
    exact of_name_name kind

/-- The symbol that spells an operator or punctuation kind. The other kinds have none. -/
def symbol? : TokenKind → Option String
  | openBracket => some "["
  | closeBracket => some "]"
  | openCurly => some "\x7b"
  | closeCurly => some "\x7d"
  | openParen => some "("
  | closeParen => some ")"
  | comma => some ","
  | semicolon => some ";"
  | dot => some "."
  | assign => some "="
  | equal => some "=="
  | not => some "!"
  | notEqual => some "!="
  | less => some "<"
  | lessEqual => some "<="
  | greater => some ">"
  | greaterEqual => some ">="
  | leftShift => some "<<"
  | rightShift => some ">>"
  | or => some "||"
  | and => some "&&"
  | plus => some "+"
  | minus => some "-"
  | star => some "*"
  | slash => some "/"
  | percent => some "%"
  | _ => none

/-- The label of a kind: its symbol between quotes where it has one, else a name of its own. -/
def label (kind : TokenKind) : String :=
  match kind.symbol? with
  | some symbol => "'" ++ symbol ++ "'"
  | none =>
    match kind with
    | intLiteral => "T_IntConstant"
    | stringLiteral => "T_StringConstant"
    | boolLiteral => "T_BoolConstant"
    | stringType => "T_String"
    | other => "T_" ++ other.name

/-- A type keyword opens a declaration: `int`, `bool`, `string` or `void`. -/
def isTypeKeyword : TokenKind → Bool
  | intType | boolType | stringType | voidType => true
  | _ => false

end TokenKind

end Decaf
