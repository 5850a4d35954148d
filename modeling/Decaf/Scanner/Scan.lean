import Decaf.Diagnostic.Basic
import Decaf.Scanner.Segment

/-!
# Scanning a source text

Scanning places every segment of a text, and reads from each placed segment at most one token and
at most one diagnostic. Segments are independent of each other, so a fault in one never hides a
later one. `place_append` says that placing can be resumed behind any segment.
-/

namespace Decaf

/-- The number that a run of decimal digits denotes. -/
def decimalValue (digits : List Char) : Nat :=
  digits.foldl (fun value digit ↦ 10 * value + (digit.toNat - '0'.toNat)) 0

/-- The largest integer literal of Decaf: one less than two to the power 63. -/
def largestInt : Nat := 0x7fffffffffffffff

/-- The name a source text goes by when it has no file. -/
def unnamedFile : String := "<input>"

namespace Segment

/-- The kind and value of a word: a reserved word stands for itself, `true` and `false` denote
their truth value, and every other word is an identifier that denotes its name. -/
def wordMeaning (word : String) : TokenKind × TokenValue :=
  match reservedKind? word with
  | some .boolLiteral => (.boolLiteral, .bool (word == "true"))
  | some kind => (kind, .none)
  | none => (.identifier, .identifier word)

/-- The value of a run of digits. A number out of range has none. -/
def numberValue (digits : List Char) : TokenValue :=
  if decimalValue digits ≤ largestInt then .int (decimalValue digits) else .none

/-- The kind and value of the token a segment holds. -/
def meaning? : Segment → Option (TokenKind × TokenValue)
  | word letters => some (wordMeaning (String.ofList letters))
  | number digits => some (.intLiteral, numberValue digits)
  | string body => some (.stringLiteral, .string (String.ofList body))
  | symbol kind _ => some (kind, .none)
  | blank _ | lineComment _ | blockComment _ | openComment _ | openString _ | illegal _ => none

/-- What is wrong with a segment. A number out of range is a token all the same. -/
def fault? : Segment → Option Cause
  | openComment _ => some .unterminatedComment
  | openString body => some (.unterminatedString (String.ofList ('"' :: body)))
  | illegal c => some (.illegalCharacter c)
  | number digits =>
    if decimalValue digits ≤ largestInt then none
    else some (.integerOverflow (String.ofList digits))
  | blank _ | lineComment _ | blockComment _ | word _ | string _ | symbol _ _ => none

end Segment

/-- A segment together with the place where it starts. -/
structure Placed where
  start : Position
  segment : Segment
deriving DecidableEq, Repr

namespace Placed

/-- The place just past a segment. -/
def stop (placed : Placed) : Position :=
  placed.start.advance placed.segment.text

/-- The part of a file that a segment covers. -/
def span (file : String) (placed : Placed) : Span :=
  ⟨file, placed.start, placed.stop⟩

/-- The token a placed segment holds. -/
def token? (file : String) (placed : Placed) : Option Token :=
  placed.segment.meaning?.map fun meaning ↦
    ⟨meaning.1, String.ofList placed.segment.text, meaning.2, placed.span file⟩

/-- The diagnostic a placed segment calls for. -/
def diagnostic? (file : String) (placed : Placed) : Option Diagnostic :=
  placed.segment.fault?.map fun cause ↦ ⟨cause, placed.span file⟩

end Placed

/-- Places segments one behind the other. -/
def place (start : Position) : List Segment → List Placed
  | [] => []
  | segment :: rest => ⟨start, segment⟩ :: place (start.advance segment.text) rest

/-- Segments behind others are placed where those end. -/
theorem place_append (start : Position) (first second : List Segment) :
    place start (first ++ second) =
      place start first ++ place (start.advance (first.flatMap Segment.text)) second := by
  induction first generalizing start with
  | nil => rfl
  | cons segment rest ih => simp [place, ih, Position.advance_append]

/-- The outcome of scanning: the tokens and the diagnostics, both in source order. -/
structure Scan where
  tokens : List Token
  diagnostics : List Diagnostic
deriving DecidableEq, Repr

namespace Scan

/-- What placed segments of a file hold. -/
def ofPlaced (file : String) (placed : List Placed) : Scan :=
  ⟨placed.filterMap (Placed.token? file), placed.filterMap (Placed.diagnostic? file)⟩

/-- The scan of a text that starts at a given place of a file. -/
def ofText (file : String) (start : Position) (text : List Char) : Scan :=
  ofPlaced file (place start (segments text))

/-- Whether anything was wrong. -/
def hasFaults (scan : Scan) : Bool :=
  !scan.diagnostics.isEmpty

/-- The kinds of the tokens, in order. -/
def kinds (scan : Scan) : List TokenKind :=
  scan.tokens.map Token.kind

end Scan

/-- The scan of a whole source text. -/
def tokenize (source : String) (file : String) : Scan :=
  Scan.ofText file .start source.toList

end Decaf
