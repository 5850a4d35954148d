import Decaf.Diagnostic.Basic
import Decaf.Grammar.Tables

/-!
# The state of a recognizer

A recognizer stands at one token of a list that ends with the end of input. It knows the tokens
before and after, the rule tables, and how deeply the constructs around the current token are
nested. Nothing but the current token is ever blamed: `Recognizer.unexpected` is the only way to
build a syntax error.
-/

namespace Decaf

/-- How deeply statements and expressions may be nested in each other. -/
def nestingLimit : Nat := 256

/-- A recognizer at a token. The tokens before it are kept latest first. -/
structure Recognizer where
  before : List Token
  current : Token
  after : List Token
  depth : Nat
  tables : Tables

namespace Recognizer

/-- The token that ends the input: it is empty and stands just past the last token, or at the start
of the file when there are no tokens. -/
def endToken (tokens : List Token) (file : String) : Token :=
  let span : Span :=
    match tokens.getLast? with
    | some last => .point last.span.file last.span.stop
    | none => .point file .start
  ⟨.endOfInput, "", .none, span⟩

/-- A recognizer at the first of the given tokens, with empty tables. -/
def start (tokens : List Token) (file : String) : Recognizer :=
  let ending := endToken tokens file
  match tokens with
  | [] => ⟨[], ending, [], 0, .empty⟩
  | first :: rest => ⟨[], first, rest ++ [ending], 0, .empty⟩

/-- All tokens of a recognizer, in order. -/
def tokens (recognizer : Recognizer) : List Token :=
  recognizer.before.reverse ++ recognizer.current :: recognizer.after

/-- The number of tokens before the current one. -/
def index (recognizer : Recognizer) : Nat :=
  recognizer.before.length

/-- The kind of the current token. -/
def kind (recognizer : Recognizer) : TokenKind :=
  recognizer.current.kind

/-- Whether the input goes on. -/
def hasTokens (recognizer : Recognizer) : Bool :=
  recognizer.kind != .endOfInput

/-- The place of the current token. -/
def position (recognizer : Recognizer) : Position :=
  recognizer.current.span.start

/-- Moves on to the next token. The last token is never left. -/
def advance (recognizer : Recognizer) : Recognizer :=
  match recognizer.after with
  | [] => recognizer
  | next :: rest =>
    { recognizer with
      before := recognizer.current :: recognizer.before
      current := next
      after := rest }

/-- The error that the current token does not fit. Past the end of input no reason is given. -/
def unexpected (recognizer : Recognizer) (reason : Option String) : Diagnostic :=
  if recognizer.kind = .endOfInput then ⟨.unexpectedEndOfInput, recognizer.current.span⟩
  else ⟨.unexpectedToken recognizer.current.lexeme reason, recognizer.current.span⟩

/-- The error that a token of another kind was expected. -/
def missing (recognizer : Recognizer) (kind : TokenKind) : Diagnostic :=
  recognizer.unexpected (some ("expected " ++ kind.label))

/-- Enters registrations into the tables. -/
def register (recognizer : Recognizer) (registrations : List Registration) : Recognizer :=
  { recognizer with tables := recognizer.tables.registerAll registrations }

/-- Starting puts the end of input behind the given tokens. -/
theorem tokens_start (tokens : List Token) (file : String) :
    (start tokens file).tokens = tokens ++ [endToken tokens file] := by
  cases tokens <;> rfl

/-- Moving on leaves the list of tokens as it is. -/
@[simp] theorem tokens_advance (recognizer : Recognizer) :
    recognizer.advance.tokens = recognizer.tokens := by
  unfold advance
  split
  · rfl
  · next h => simp [tokens, h]

end Recognizer

end Decaf
