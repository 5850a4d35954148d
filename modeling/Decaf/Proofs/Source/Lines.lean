import Decaf.Proofs.Scanner.Division
import Decaf.Source.Line
import Mathlib.Data.List.DropRight

/-!
# The line around a place

`IsLine` says that a text falls into a line, what stands before it and what follows it.
`exists_line_around` finds the line of every place, and `line_at_eq` says that `lineAt?` finds the
same one: its number counts the newlines before it, and its text ends with its newline if it has
one. `advance_start_in_line` counts a place from the start of its line.
-/

namespace Decaf

/-- What stands before is nothing, or ends with a newline. -/
def StartsLine (before : List Char) : Prop :=
  ∀ c ∈ before.getLast?, c = '\n'

/-- A text without newlines is a whole line between two other texts. -/
structure IsLine (before line after : List Char) : Prop where
  starts : StartsLine before
  whole : '\n' ∉ line
  ends : EndsLine after

/-- The end of whole lines starts the next line too. -/
theorem StartsLine.of_append (front : List Char) {back : List Char}
    (h : StartsLine (front ++ back)) : StartsLine back := by
  intro c hc
  refine h c ?_
  rw [List.getLast?_append, Option.mem_def.mp hc]
  rfl

/-! ## Lines of a text -/

/-- Every text has a line. -/
theorem lines_of_ne_nil (text : List Char) : linesOf text ≠ [] := by
  cases text with
  | nil => simp [linesOf]
  | cons c rest =>
      unfold linesOf
      split
      · simp
      · split <;> simp

/-- A text without newlines is its only line. -/
theorem lines_of_line {line : List Char} (h : '\n' ∉ line) : linesOf line = [line] := by
  induction line with
  | nil => rfl
  | cons c line ih =>
      rw [linesOf, if_neg (Ne.symm (List.ne_of_not_mem_cons h)),
        ih (List.not_mem_of_not_mem_cons h)]

/-- The first newline of a text ends its first line. -/
theorem lines_of_append {line : List Char} (h : '\n' ∉ line) (rest : List Char) :
    linesOf (line ++ '\n' :: rest) = (line ++ ['\n']) :: linesOf rest := by
  induction line with
  | nil => rw [List.nil_append, linesOf, if_pos rfl, List.nil_append]
  | cons c line ih =>
      rw [List.cons_append, linesOf, if_neg (Ne.symm (List.ne_of_not_mem_cons h)),
        ih (List.not_mem_of_not_mem_cons h), List.cons_append]

section

variable {before line after rest : List Char} {number offset : Nat}

/-- An offset behind the first line of a text is looked up among the other lines. -/
theorem find_line_append (h : '\n' ∉ line) :
    findLine? (linesOf (line ++ '\n' :: rest)) number (byteLength (line ++ ['\n']) + offset) =
      findLine? (linesOf rest) (number + 1) offset := by
  obtain ⟨next, lines, hlines⟩ := List.exists_cons_of_ne_nil (lines_of_ne_nil rest)
  rw [lines_of_append h, hlines, findLine?, if_neg (by omega), Nat.add_sub_cancel_left]

/-- An offset behind whole lines is looked up among the others, which are numbered on. -/
theorem find_line_behind (hstarts : StartsLine before) :
    findLine? (linesOf (before ++ rest)) number (byteLength before + offset) =
      findLine? (linesOf rest) (number + before.count '\n') offset := by
  induction hlength : before.length using Nat.strong_induction_on generalizing before number with
  | _ length ih =>
      rcases List.eq_nil_or_concat' before with rfl | ⟨init, c, rfl⟩
      · simp
      · -- What is not empty ends with a newline, so that it has a first line to skip.
        have hc : c = '\n' := hstarts c (by simp)
        have hmem : '\n' ∈ init ++ [c] := by simp [hc]
        obtain ⟨line, tail, hsplit, hline⟩ := List.eq_append_cons_of_mem hmem
        have hshorter : tail.length < length := by
          rw [← hlength, hsplit, List.length_append, List.length_cons]
          omega
        have htail : StartsLine tail := by
          rw [hsplit, List.append_cons] at hstarts
          exact hstarts.of_append
        have hbytes : byteLength (line ++ '\n' :: tail) + offset =
            byteLength (line ++ ['\n']) + (byteLength tail + offset) := by
          simp only [byte_length_append, byte_length_cons, byte_length_nil]
          omega
        rw [hsplit, hbytes, List.append_assoc, List.cons_append, find_line_append hline,
          ih _ hshorter htail rfl, List.count_append, List.count_cons_self,
          List.count_eq_zero.mpr hline]
        congr 1
        omega

/-- An offset in a line, or just past its characters, is found in this line. The line is shown with
its newline, and its number counts the newlines before it. -/
theorem line_at_eq (h : IsLine before line after) (hoffset : offset ≤ byteLength line) :
    lineAt? (before ++ (line ++ after)) (byteLength before + offset) =
      some ⟨1 + before.count '\n', line ++ after.take 1, offset⟩ := by
  rw [lineAt?, find_line_behind h.starts]
  rcases h.ends.cases with rfl | ⟨rest, rfl⟩
  · rw [List.append_nil, lines_of_line h.whole, findLine?, if_pos hoffset, List.take_nil,
      List.append_nil]
  · obtain ⟨next, lines, hlines⟩ := List.exists_cons_of_ne_nil (lines_of_ne_nil rest)
    have hbytes : offset < byteLength (line ++ ['\n']) := by
      have hpos := byte_length_pos (List.cons_ne_nil '\n' [])
      rw [byte_length_append]
      omega
    rw [lines_of_append h.whole, hlines, findLine?, if_pos hbytes, List.take_succ_cons,
      List.take_zero]

end

/-! ## Places in lines -/

/-- A line starts in front of the characters that are not newlines at the end of a text. -/
theorem starts_line_rdrop_while (front : List Char) :
    StartsLine (front.rdropWhile (· ≠ '\n')) := by
  intro c hc
  obtain ⟨hne, rfl⟩ := List.mem_getLast?_eq_getLast hc
  simpa using List.rdropWhile_last_not _ _ hne

/-- There is no newline among the characters that are not newlines. -/
theorem newline_not_mem_rtake_while (front : List Char) :
    '\n' ∉ front.rtakeWhile (· ≠ '\n') := by
  intro hmem
  simpa using List.mem_rtakeWhile_imp hmem

/-- A text ends with the start of a line. -/
theorem exists_line_start (front : List Char) :
    ∃ before left, front = before ++ left ∧ StartsLine before ∧ '\n' ∉ left :=
  ⟨front.rdropWhile (· ≠ '\n'), front.rtakeWhile (· ≠ '\n'),
    List.rdropWhile_append_rtakeWhile.symm, starts_line_rdrop_while front,
    newline_not_mem_rtake_while front⟩

/-- Every place of a text stands in a line, with a part of it before the place and a part behind. -/
theorem exists_line_around (front back : List Char) :
    ∃ before left right after, front = before ++ left ∧ back = right ++ after ∧
      IsLine before (left ++ right) after := by
  obtain ⟨before, left, rfl, hstarts, hleft⟩ := exists_line_start front
  refine ⟨before, left, back.takeWhile staysInLine, back.dropWhile staysInLine, rfl,
    List.takeWhile_append_dropWhile.symm, hstarts, fun hmem ↦ ?_, fun c hc ↦ ?_⟩
  · rcases List.mem_append.mp hmem with hmem | hmem
    · exact hleft hmem
    · exact take_while_not_mem (by decide) back hmem
  · simpa [staysInLine] using head_drop_while staysInLine back c hc

/-- Reading whole lines leads to the first column. -/
theorem advance_start_column_one {before : List Char} (h : StartsLine before) :
    (Position.start.advance before).column = 1 := by
  rcases List.eq_nil_or_concat' before with rfl | ⟨init, c, rfl⟩
  · rfl
  · have hc : c = '\n' := h c (by simp)
    rw [Position.advance_append, Position.advance_cons, Position.advance_nil, Position.past,
      if_pos hc]

/-- A place in a line counts the newlines before the line, and the characters of the line up to
itself. -/
theorem advance_start_in_line {before left : List Char} (hstarts : StartsLine before)
    (hleft : '\n' ∉ left) :
    Position.start.advance (before ++ left) =
      ⟨byteLength before + byteLength left, 1 + before.count '\n', 1 + left.length⟩ := by
  have hline := Position.advance_line .start (before ++ left)
  have hoffset := Position.advance_offset .start (before ++ left)
  have hcolumn := Position.advance_column (Position.start.advance before) left hleft
  rw [List.count_append, List.count_eq_zero.mpr hleft] at hline
  rw [byte_length_append] at hoffset
  rw [advance_start_column_one hstarts, ← Position.advance_append] at hcolumn
  rw [Position.mk.injEq]
  exact ⟨hoffset.trans (Nat.zero_add _), hline, hcolumn⟩

/-! ## Texts of one line -/

/-- A text that no newline breaks. -/
def OneLine (text : String) : Prop :=
  '\n' ∉ text.toList

/-- Whether a text is broken can be tested. -/
instance (text : String) : Decidable (OneLine text) :=
  inferInstanceAs (Decidable ('\n' ∉ text.toList))

/-- Joined texts are broken only where one of them is. -/
theorem OneLine.append {first second : String} (hfirst : OneLine first) (hsecond : OneLine second) :
    OneLine (first ++ second) := by
  intro hmem
  rw [String.toList_append] at hmem
  rcases List.mem_append.mp hmem with hmem | hmem
  · exact hfirst hmem
  · exact hsecond hmem

/-- A text of characters that are not newlines is not broken. -/
theorem one_line_of_list {text : List Char} (h : '\n' ∉ text) : OneLine (String.ofList text) := by
  rwa [OneLine, String.toList_ofList]

end Decaf
