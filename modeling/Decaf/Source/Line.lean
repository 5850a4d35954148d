import Decaf.Source.Position

/-!
# The line around a byte offset

A text is cut into lines after each newline, so that every newline ends its own line and what
follows the last newline is a line too, empty or not. `lineAt?` finds the line that holds a byte
offset; the offset just past the text belongs to the last line.
-/

namespace Decaf

/-- The lines of a text. Each line but the last ends with its newline, and the last has none. -/
def linesOf : List Char → List (List Char)
  | [] => [[]]
  | c :: rest =>
    if c = '\n' then [c] :: linesOf rest
    else
      match linesOf rest with
      | [] => [[c]]
      | line :: lines => (c :: line) :: lines

/-- Joining the lines of a text gives the text back. -/
theorem lines_of_flatten (text : List Char) : (linesOf text).flatten = text := by
  induction text with
  | nil => rfl
  | cons c rest ih =>
    unfold linesOf
    split
    · simp [ih]
    · split
      · next h => simp [h] at ih; simp [← ih]
      · next line lines h => rw [h] at ih; simp [← ih]

/-- A line of a text with its number, counted from one, and an offset inside it. -/
structure LineAt where
  number : Nat
  text : List Char
  offset : Nat
deriving DecidableEq, Repr

/-- The line that holds an offset, among lines counted from `number`. Only the last line holds the
offset just past its end. -/
def findLine? : List (List Char) → (number offset : Nat) → Option LineAt
  | [], _, _ => none
  | [line], number, offset =>
    if offset ≤ byteLength line then some ⟨number, line, offset⟩ else none
  | line :: next :: lines, number, offset =>
    if offset < byteLength line then some ⟨number, line, offset⟩
    else findLine? (next :: lines) (number + 1) (offset - byteLength line)

/-- The line of a text that holds a byte offset, if the offset lies within the text or just past
its end. -/
def lineAt? (text : List Char) (offset : Nat) : Option LineAt :=
  findLine? (linesOf text) 1 offset

end Decaf
