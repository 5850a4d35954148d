import Decaf.Proofs.Scanner.Recount
import Decaf.Proofs.Scanner.Units
import Mathlib.Algebra.Group.Nat.Defs

/-!
# Where a cursor is moved to

A cursor can be moved over texts that do not stand at it. Its place then counts these texts and
nothing else: bytes, newlines, and the characters behind the last newline (`advance_start`). There
are no more newlines or characters than bytes, so that all counts fit into 32 bits at every
character of a text that is short enough (`fits_words_of_prefix`). `advance_over_texts` is this for
texts cut in any way, and for any source.
-/

namespace Decaf

/-- A place whose counts fit into 32 bits. -/
structure Position.FitsWords (position : Position) : Prop where
  offset : position.offset < 2 ^ 32
  line : position.line < 2 ^ 32
  column : position.column < 2 ^ 32

/-- A text has no more characters than bytes. -/
theorem length_le_byte_length (text : List Char) : text.length ≤ byteLength text := by
  induction text with
  | nil => exact Nat.le_refl 0
  | cons c text ih =>
      have hpos := c.utf8Size_pos
      rw [List.length_cons, byte_length_cons]
      omega

/-- The place behind a text from the start counts the text. -/
theorem advance_start (text : List Char) :
    Position.start.advance text =
      ⟨byteLength text, 1 + text.count '\n', 1 + (text.rtakeWhile (· ≠ '\n')).length⟩ := by
  have hoffset : (Position.start.advance text).offset = byteLength text := by
    rw [Position.advance_offset]
    exact Nat.zero_add _
  have hline : (Position.start.advance text).line = 1 + text.count '\n' :=
    Position.advance_line .start text
  rw [← hoffset, ← hline, ← advance_start_column]

/-- The counts behind a part of a short text fit into 32 bits. -/
theorem fits_words_of_prefix {text passed : List Char} (hshort : byteLength text < 2 ^ 32 - 1)
    (hpassed : passed <+: text) : (Position.start.advance passed).FitsWords := by
  obtain ⟨rest, rfl⟩ := hpassed
  have hlength := length_le_byte_length passed
  have hcount : passed.count '\n' ≤ passed.length := List.count_le_length
  have hlast := (passed.rtakeWhile_suffix (· ≠ '\n')).length_le
  rw [byte_length_append] at hshort
  rw [advance_start]
  constructor
  · show byteLength passed < 2 ^ 32
    omega
  · show 1 + passed.count '\n' < 2 ^ 32
    omega
  · show 1 + (passed.rtakeWhile (· ≠ '\n')).length < 2 ^ 32
    omega

/-- Moving a cursor leaves its source. -/
theorem foldl_advance_over_source (cursor : Cursor) (texts : List (List Char)) :
    (texts.foldl Cursor.advanceOver cursor).source = cursor.source := by
  induction texts generalizing cursor with
  | nil => rfl
  | cons text texts ih => exact ih (cursor.advanceOver text)

/-- A new cursor that is moved over texts stands behind their bytes and newlines, and behind the
characters after the last newline, whatever its source and however the texts are cut. It is at the
end if these are as many bytes as the source has, or more. As long as the texts are short enough,
the counts fit into 32 bits all the way. -/
theorem advance_over_texts (source file : String) (texts : List (List Char)) :
    (texts.foldl Cursor.advanceOver (.start source file)).position =
        ⟨byteLength texts.flatten, 1 + texts.flatten.count '\n',
          1 + (texts.flatten.rtakeWhile (· ≠ '\n')).length⟩ ∧
      (∀ otherSource otherFile (others : List (List Char)), others.flatten = texts.flatten →
        (others.foldl Cursor.advanceOver (.start otherSource otherFile)).position =
          (texts.foldl Cursor.advanceOver (.start source file)).position) ∧
      ((texts.foldl Cursor.advanceOver (.start source file)).atEnd = true ↔
        source.utf8ByteSize ≤ byteLength texts.flatten) ∧
      (byteLength texts.flatten < 2 ^ 32 - 1 → ∀ passed, passed <+: texts.flatten →
        ((Cursor.start source file).advanceOver passed).position.FitsWords) := by
  have hposition : (texts.foldl Cursor.advanceOver (.start source file)).position =
      Position.start.advance texts.flatten :=
    foldl_advance_over (.start source file) texts
  refine ⟨hposition.trans (advance_start _), ?_, ?_,
    fun hshort passed ↦ fits_words_of_prefix hshort⟩
  · intro otherSource otherFile others hsame
    rw [foldl_advance_over, hsame, hposition]
    rfl
  · have hsource : (texts.foldl Cursor.advanceOver (.start source file)).source = source.toList :=
      foldl_advance_over_source (.start source file) texts
    rw [Cursor.atEnd, hsource, byte_length_to_list, hposition, advance_start, decide_eq_true_iff]

/-- A line may be cut anywhere, and the source need not hold it. -/
example : ([['a', '\n', 'é'], [], ['b']].foldl Cursor.advanceOver (.start "c" "f")).position =
    ⟨5, 2, 3⟩ := by decide

end Decaf
