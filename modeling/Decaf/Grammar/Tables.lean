import Decaf.Grammar.Power
import Decaf.Grammar.Rule
import Decaf.Token.Kind

/-!
# Rule tables

Which rule reads what starts with a token of some kind, and how tightly the token binds. There is
one table for statements, and for expressions and types each a table of heads, a table of
continuations and a table of powers. Tables are filled by registrations, and a later registration
for a kind replaces an earlier one. `Tables.standard` is the grammar of Decaf.
-/

namespace Decaf

/-- The rule tables. An operand starts an expression and an operator continues one; a head starts a
type and a suffix continues one. Tables do not look into their rules, which are those of Decaf
unless others are named. -/
structure Tables (Plain : Type := Rule) (Graded : Type := GradedRule) where
  statement : TokenKind → Option Plain
  operand : TokenKind → Option Plain
  operator : TokenKind → Option Graded
  power : TokenKind → Option Power
  typeHead : TokenKind → Option Plain
  typeSuffix : TokenKind → Option Graded
  typePower : TokenKind → Option Power

/-- A table with the entry of one kind replaced. -/
def replaceEntry {α : Type} (table : TokenKind → Option α) (kind : TokenKind) (entry : α) :
    TokenKind → Option α :=
  fun other ↦ if other = kind then some entry else table other

/-- The replaced entry is found under its kind. -/
@[simp] theorem replace_entry_self {α : Type} (table : TokenKind → Option α) (kind : TokenKind)
    (entry : α) : replaceEntry table kind entry kind = some entry := by
  simp [replaceEntry]

/-- The entries of other kinds stay. -/
theorem replace_entry_of_ne {α : Type} (table : TokenKind → Option α) {kind other : TokenKind}
    (entry : α) (h : other ≠ kind) : replaceEntry table kind entry other = table other := by
  simp [replaceEntry, h]

/-- One entry for the tables: a kind with its rule, and with a power where the rule is graded. -/
inductive Registration (Plain : Type := Rule) (Graded : Type := GradedRule) where
  | statement (kind : TokenKind) (rule : Plain)
  | operand (kind : TokenKind) (rule : Plain)
  | operator (kind : TokenKind) (power : Power) (rule : Graded)
  | typeHead (kind : TokenKind) (rule : Plain)
  | typeSuffix (kind : TokenKind) (power : Power) (rule : Graded)
deriving DecidableEq, Repr

namespace Tables

variable {Plain Graded : Type}

/-- Tables without entries. -/
def empty : Tables Plain Graded where
  statement _ := none
  operand _ := none
  operator _ := none
  power _ := none
  typeHead _ := none
  typeSuffix _ := none
  typePower _ := none

/-- Enters one registration. A statement gives its kind the lowest power. An operand gives its kind
the power `primary` unless the kind has a power already. A type head always does. -/
def register (tables : Tables Plain Graded) : Registration Plain Graded → Tables Plain Graded
  | .statement kind rule =>
    { tables with
      power := replaceEntry tables.power kind .lowest
      statement := replaceEntry tables.statement kind rule }
  | .operand kind rule =>
    { tables with
      power := replaceEntry tables.power kind ((tables.power kind).getD .primary)
      operand := replaceEntry tables.operand kind rule }
  | .operator kind power rule =>
    { tables with
      power := replaceEntry tables.power kind power
      operator := replaceEntry tables.operator kind rule }
  | .typeHead kind rule =>
    { tables with
      typePower := replaceEntry tables.typePower kind .primary
      typeHead := replaceEntry tables.typeHead kind rule }
  | .typeSuffix kind power rule =>
    { tables with
      typePower := replaceEntry tables.typePower kind power
      typeSuffix := replaceEntry tables.typeSuffix kind rule }

/-- Enters registrations one after the other. -/
def registerAll (tables : Tables Plain Graded)
    (registrations : List (Registration Plain Graded)) : Tables Plain Graded :=
  registrations.foldl register tables

/-- The registrations for statements and expressions. -/
def expressionRegistrations : List Registration :=
  [.operator .assign .assignment .assignment,
    .operator .or .logicalOr .binary,
    .operator .and .logicalAnd .binary,
    .operator .equal .equality .binary,
    .operator .notEqual .equality .binary,
    .operator .less .relational .binary,
    .operator .lessEqual .relational .binary,
    .operator .greater .relational .binary,
    .operator .greaterEqual .relational .binary,
    .operator .leftShift .shift .binary,
    .operator .rightShift .shift .binary,
    .operator .plus .additive .binary,
    .operator .minus .additive .binary,
    .operator .star .multiplicative .binary,
    .operator .slash .multiplicative .binary,
    .operator .percent .multiplicative .binary,
    .operator .openParen .call .call,
    .operator .openBracket .call .index,
    .operator .dot .member .member,
    .operand .intLiteral .atom,
    .operand .stringLiteral .atom,
    .operand .boolLiteral .atom,
    .operand .nullWord .atom,
    .operand .identifier .atom,
    .operand .minus .signed,
    .operand .not .signed,
    .operand .openParen .grouping,
    .statement .intType .variableStatement,
    .statement .boolType .variableStatement,
    .statement .stringType .variableStatement,
    .statement .voidType .variableStatement,
    .statement .openCurly .block,
    .statement .ifWord .ifStatement,
    .statement .whileWord .whileStatement,
    .statement .forWord .forStatement,
    .statement .returnWord .returnStatement,
    .statement .breakWord .jumpStatement,
    .statement .continueWord .jumpStatement,
    .statement .printWord .printStatement]

/-- The registrations for types. -/
def typeRegistrations : List Registration :=
  [.typeHead .intType .keywordType,
    .typeHead .boolType .keywordType,
    .typeHead .stringType .keywordType,
    .typeHead .voidType .keywordType,
    .typeSuffix .openBracket .call .arrayType]

/-- The tables of Decaf. -/
def standard : Tables :=
  (empty.registerAll expressionRegistrations).registerAll typeRegistrations

end Tables

end Decaf
