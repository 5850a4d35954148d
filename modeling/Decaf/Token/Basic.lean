import Decaf.Source.Position
import Decaf.Token.Kind

/-!
# Tokens

A token is a kind, the source text it was read from, the value that text denotes, and its span.
`Token.listing` is its one line in a token listing.
-/

namespace Decaf

/-- What a token's text denotes. An integer literal out of range and all fixed spellings denote
nothing. -/
inductive TokenValue where
  | none
  | identifier (name : String)
  | int (value : Int)
  | string (content : String)
  | bool (value : Bool)
deriving DecidableEq, Repr

namespace TokenValue

/-- A value as text. String contents stand between quotes just as they were written. -/
def text : TokenValue → String
  | none => ""
  | identifier name => name
  | int value => toString value
  | string content => "\"" ++ content ++ "\""
  | bool true => "true"
  | bool false => "false"

end TokenValue

/-- A token of a source file. -/
structure Token where
  kind : TokenKind
  lexeme : String
  value : TokenValue
  span : Span
deriving DecidableEq, Repr

namespace Token

/-- The line a token starts on. -/
def line (token : Token) : Nat :=
  token.span.start.line

/-- The column of a token's first character. -/
def firstColumn (token : Token) : Nat :=
  token.span.start.column

/-- The column of a token's last character, and never one before its first. -/
def lastColumn (token : Token) : Nat :=
  max (token.span.stop.column - 1) token.span.start.column

/-- Only literals show their value beside the label of their kind. -/
def showsValue (token : Token) : Bool :=
  match token.kind with
  | .intLiteral | .stringLiteral | .boolLiteral => token.value != .none
  | _ => false

/-- The label of a token: that of its kind, with the value of a literal that has one. -/
def label (token : Token) : String :=
  if token.showsValue then token.kind.label ++ " (value= " ++ token.value.text ++ ")"
  else token.kind.label

/-- A token's line in a token listing: its text, where it stands, and its label. -/
def listing (token : Token) : String :=
  token.lexeme ++ "\tline " ++ toString token.line ++ " cols " ++ toString token.firstColumn ++
    "-" ++ toString token.lastColumn ++ " is " ++ token.label

end Token

end Decaf
