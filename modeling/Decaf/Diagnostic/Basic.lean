import Decaf.Text.Quoted
import Decaf.Token.Basic

/-!
# Diagnostics

What can be wrong with a Decaf program, and the words for it. A diagnostic is a cause with the span
it concerns. Lexical causes come from reading characters, the others from reading tokens. Each
cause has a name, a message for a one-line report, and in most cases a hint.
-/

namespace Decaf

/-- What is wrong. An unexpected token may carry the reason why it does not fit. -/
inductive Cause where
  | illegalCharacter (character : Char)
  | unterminatedString (literal : String)
  | unterminatedComment
  | integerOverflow (literal : String)
  | unexpectedToken (lexeme : String) (reason : Option String)
  | unexpectedEndOfInput
deriving DecidableEq, Repr

namespace Cause

/-- A lexical cause lies in the characters, not in the order of the tokens. -/
def isLexical : Cause → Bool
  | illegalCharacter _ | unterminatedString _ | unterminatedComment | integerOverflow _ => true
  | unexpectedToken _ _ | unexpectedEndOfInput => false

/-- The name a cause is reported under. -/
def name : Cause → String
  | illegalCharacter _ => "IllegalCharacter"
  | unterminatedString _ => "UnterminatedString"
  | unterminatedComment => "UnterminatedComment"
  | integerOverflow _ => "IntegerOverflow"
  | unexpectedToken _ none => "UnexpectedToken"
  | unexpectedToken _ (some _) => "UnexpectedTokenDetailed"
  | unexpectedEndOfInput => "UnexpectedEndOfInput"

/-- A cause in one line. Source text is quoted, so the line never breaks. -/
def message : Cause → String
  | illegalCharacter character => "illegal character " ++ quoteChar character
  | unterminatedString literal => "unterminated string literal: " ++ quoteText literal
  | unterminatedComment => "unterminated block comment"
  | integerOverflow literal => "integer literal out of range: " ++ quoteText literal
  | unexpectedToken lexeme none => "unexpected token: " ++ quoteText lexeme
  | unexpectedToken lexeme (some reason) =>
    "unexpected token (" ++ quoteText reason ++ "): " ++ quoteText lexeme
  | unexpectedEndOfInput => "unexpected end of input"

/-- What a reader may do about a cause. Nothing more can be said when the input just ends. -/
def tip? : Cause → Option String
  | illegalCharacter character => some ("Illegal character '" ++ asciiEscape character ++ "'")
  | unterminatedString _ => some "String literals must be closed with `\"` on the same line"
  | unterminatedComment => some "Block comment is never closed, add a matching `*/`"
  | integerOverflow literal =>
    some ("Invalid number: `" ++ literal ++ "`, is it above the integer limit?")
  | unexpectedToken lexeme none =>
    some ("Unexpected token: `" ++ lexeme ++ "`, did you miss a semicolon?")
  | unexpectedToken lexeme (some reason) =>
    some ("Unexpected token: `" ++ lexeme ++ "`, " ++ reason)
  | unexpectedEndOfInput => none

end Cause

/-- A cause and the part of the file it concerns. -/
structure Diagnostic where
  cause : Cause
  span : Span
deriving DecidableEq, Repr

namespace Diagnostic

/-- Where a diagnostic is reported: the start of its span. -/
def position (diagnostic : Diagnostic) : Position :=
  diagnostic.span.start

/-- The one-line report of a diagnostic: file, line, column and message. -/
def summary (diagnostic : Diagnostic) : String :=
  diagnostic.span.file ++ ":" ++ toString diagnostic.position.line ++ ":" ++
    toString diagnostic.position.column ++ ": " ++ diagnostic.cause.message

end Diagnostic

end Decaf
