/-!
# Positions in a source text

A position counts what lies before it: bytes, lines and characters of the current line. Reading
text moves it forward, and `advance_append` says that only the text read matters, not how it was
cut into pieces. A span is the part of one file between two positions.
-/

namespace Decaf

/-- The length of a text in bytes, as it is stored. -/
def byteLength : List Char → Nat
  | [] => 0
  | c :: rest => c.utf8Size + byteLength rest

/-- No bytes for no text. -/
@[simp] theorem byte_length_nil : byteLength [] = 0 := rfl

/-- A text's first character adds its own bytes. -/
@[simp] theorem byte_length_cons (c : Char) (text : List Char) :
    byteLength (c :: text) = c.utf8Size + byteLength text := rfl

/-- Byte lengths add up. -/
@[simp] theorem byte_length_append (first second : List Char) :
    byteLength (first ++ second) = byteLength first + byteLength second := by
  induction first with
  | nil => simp
  | cons c first ih => simp [ih, Nat.add_assoc]

/-- The length of a character list is the stored size of its string. -/
theorem byte_length_of_list (text : List Char) :
    (String.ofList text).utf8ByteSize = byteLength text := by
  induction text with
  | nil => rfl
  | cons c text ih =>
    have h : String.ofList (c :: text) = String.singleton c ++ String.ofList text := by
      simp
    rw [h, String.utf8ByteSize_append, String.utf8ByteSize_singleton, ih, byte_length_cons]

/-- The stored size of a string is the length of its characters. -/
theorem byte_length_to_list (text : String) : byteLength text.toList = text.utf8ByteSize := by
  rw [← byte_length_of_list, String.ofList_toList]

/-- A place in a source text: bytes from its start, and line and column, both counted from one.
A column counts characters. -/
structure Position where
  offset : Nat
  line : Nat
  column : Nat
deriving DecidableEq, Repr

namespace Position

/-- The first place of a text. -/
def start : Position := ⟨0, 1, 1⟩

/-- The place just past a character. A newline ends its line. -/
def past (position : Position) (c : Char) : Position :=
  if c = '\n' then ⟨position.offset + c.utf8Size, position.line + 1, 1⟩
  else ⟨position.offset + c.utf8Size, position.line, position.column + 1⟩

/-- The place just past a text. -/
def advance (position : Position) (text : List Char) : Position :=
  text.foldl past position

/-- Reading nothing stays in place. -/
@[simp] theorem advance_nil (position : Position) : position.advance [] = position := rfl

/-- Text is read from its first character on. -/
@[simp] theorem advance_cons (position : Position) (c : Char) (text : List Char) :
    position.advance (c :: text) = (position.past c).advance text := rfl

/-- Reading two texts in turn is reading them joined. -/
theorem advance_append (position : Position) (first second : List Char) :
    position.advance (first ++ second) = (position.advance first).advance second :=
  List.foldl_append

/-- One character moves the offset by its bytes. -/
@[simp] theorem past_offset (position : Position) (c : Char) :
    (position.past c).offset = position.offset + c.utf8Size := by
  unfold past
  split <;> rfl

/-- The offset counts the bytes read. -/
theorem advance_offset (position : Position) (text : List Char) :
    (position.advance text).offset = position.offset + byteLength text := by
  induction text generalizing position with
  | nil => rfl
  | cons c text ih => simp [ih, Nat.add_assoc]

/-- The line counts the newlines read. -/
theorem advance_line (position : Position) (text : List Char) :
    (position.advance text).line = position.line + text.count '\n' := by
  induction text generalizing position with
  | nil => rfl
  | cons c text ih =>
    rw [advance_cons, ih, List.count_cons]
    by_cases h : c = '\n' <;> simp [past, h]
    omega

/-- Within a line the column counts the characters read. -/
theorem advance_column (position : Position) (text : List Char) (h : '\n' ∉ text) :
    (position.advance text).column = position.column + text.length := by
  induction text generalizing position with
  | nil => rfl
  | cons c text ih =>
    have hc : c ≠ '\n' := fun heq ↦ h (by simp [heq])
    rw [advance_cons, ih _ (fun hm ↦ h (List.mem_cons_of_mem c hm))]
    simp only [past, if_neg hc, List.length_cons]
    omega

end Position

/-- The part of a file from `start` up to, and without, `stop`. -/
structure Span where
  file : String
  start : Position
  stop : Position
deriving DecidableEq, Repr

namespace Span

/-- The number of bytes a span covers. -/
def length (span : Span) : Nat :=
  span.stop.offset - span.start.offset

/-- An empty span marks a place. -/
def isEmpty (span : Span) : Bool :=
  span.start.offset == span.stop.offset

/-- The empty span at a place of a file. -/
def point (file : String) (position : Position) : Span :=
  ⟨file, position, position⟩

end Span

end Decaf
