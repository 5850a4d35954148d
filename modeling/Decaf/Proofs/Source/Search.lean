import Decaf.Proofs.Source.Offsets

/-!
# Looking for a line piece by piece

`lineAt?` goes through the lines of a text, of which the last may be empty. `searchLine` has two
branches instead. It first looks for the offset in the pieces of the text, each of which ends with
its newline. The end of the text is in no piece; there the text is sliced up to the offset, and what
follows the last newline of the slice is the line. Slicing fails behind the end of a text and inside
a character, so `searchLine` might have no answer at all. `search_line_eq` says that it always has
one, and that it is the line that `lineAt?` finds.
-/

namespace Decaf

/-- The pieces of a text, each up to its newline and with it. Only the last may be without one, and
no piece is empty. -/
def piecesOf : List Char → List (List Char)
  | [] => []
  | c :: rest =>
    if c = '\n' then [c] :: piecesOf rest
    else
      match piecesOf rest with
      | [] => [[c]]
      | piece :: pieces => (c :: piece) :: pieces

/-- The piece that holds an offset, among pieces that lie behind each other from `start` on and are
counted from `number`. -/
def searchPieces? (offset : Nat) : List (List Char) → (start number : Nat) → Option LineAt
  | [], _, _ => none
  | piece :: pieces, start, number =>
    if start ≤ offset ∧ offset < start + byteLength piece then
      some ⟨number, piece, offset - start⟩
    else searchPieces? offset pieces (start + byteLength piece) (number + 1)

/-- The first bytes of a text, if they end with a character. -/
def takeBytes? : List Char → Nat → Option (List Char)
  | _, 0 => some []
  | [], _ + 1 => none
  | c :: rest, count =>
    if c.utf8Size ≤ count then (takeBytes? rest (count - c.utf8Size)).map (c :: ·) else none

/-- The last line of a text, at its end. -/
def lastLine (text : List Char) : LineAt :=
  ⟨text.count '\n' + 1, text.rtakeWhile (· ≠ '\n'), byteLength (text.rtakeWhile (· ≠ '\n'))⟩

/-- The line of a text that holds a byte offset, found in two branches. There is no answer if the
slice of the text fails, and the answer is that there is no line if the offset lies behind the
text. -/
def searchLine (text : List Char) (offset : Nat) : Option (Option LineAt) :=
  if byteLength text < offset then some none
  else
    match searchPieces? offset (piecesOf text) 0 1 with
    | some line => some (some line)
    | none => (takeBytes? text offset).map fun front ↦ some (lastLine front)

/-! ## Pieces and lines -/

/-- The lines of a text are its pieces, and an empty line if no piece lacks its newline. -/
theorem lines_of_pieces (text : List Char) :
    linesOf text = piecesOf text ∨ linesOf text = piecesOf text ++ [[]] := by
  fun_induction piecesOf text with
  | case1 => exact Or.inr rfl
  | case2 rest ih =>
      rw [linesOf, if_pos rfl]
      exact ih.imp (congrArg _) (congrArg _)
  | case3 c rest hc hpieces ih =>
      have hlines : linesOf rest = [[]] := by
        rw [hpieces] at ih
        exact ih.resolve_left (lines_of_ne_nil rest)
      rw [linesOf, if_neg hc, hlines]
      exact Or.inl rfl
  | case4 c rest hc piece pieces hpieces ih =>
      rw [hpieces] at ih
      rw [linesOf, if_neg hc]
      rcases ih with hlines | hlines
      · rw [hlines]
        exact Or.inl rfl
      · rw [hlines]
        exact Or.inr rfl

/-- Joining the pieces of a text gives the text back. -/
theorem pieces_of_flatten (text : List Char) : (piecesOf text).flatten = text := by
  have htext := lines_of_flatten text
  rcases lines_of_pieces text with hlines | hlines
  · rwa [hlines] at htext
  · rw [hlines, List.flatten_append] at htext
    simpa using htext

section

variable {pieces lines : List (List Char)} {start number offset : Nat}

/-- An empty piece holds no offset. -/
theorem search_pieces_empty :
    searchPieces? offset (pieces ++ [[]]) start number =
      searchPieces? offset pieces start number := by
  induction pieces generalizing start number with
  | nil =>
      have hempty : ¬ (start ≤ offset ∧ offset < start + byteLength []) := by
        rw [byte_length_nil]
        omega
      simp only [List.nil_append, searchPieces?, if_neg hempty]
  | cons piece pieces ih => simp only [List.cons_append, searchPieces?, ih]

/-- No piece holds an offset behind all of them. -/
theorem search_pieces_behind (h : start + byteLength pieces.flatten ≤ offset) :
    searchPieces? offset pieces start number = none := by
  induction pieces generalizing start number with
  | nil => rfl
  | cons piece pieces ih =>
      rw [List.flatten_cons, byte_length_append] at h
      rw [searchPieces?, if_neg (by omega)]
      exact ih (by omega)

/-- Within the lines of a text their number and the offset left in them lead to the same line as the
place where each of them starts. -/
theorem find_line_eq_search (h : offset < byteLength lines.flatten) :
    findLine? lines number offset = searchPieces? (start + offset) lines start number := by
  fun_induction findLine? lines number offset generalizing start with
  | case1 => exact absurd h (Nat.not_lt_zero _)
  | case2 number offset line hle =>
      rw [List.flatten_singleton] at h
      rw [searchPieces?, if_pos (by omega), Nat.add_sub_cancel_left]
  | case3 number offset line hgt =>
      rw [List.flatten_singleton] at h
      omega
  | case4 line next lines number offset hlt =>
      rw [searchPieces?, if_pos (by omega), Nat.add_sub_cancel_left]
  | case5 line next lines number offset hge ih =>
      rw [List.flatten_cons, byte_length_append] at h
      have hstart : start + byteLength line + (offset - byteLength line) = start + offset := by
        omega
      rw [searchPieces?, if_neg (by omega), ih (by omega), hstart]

end

/-- Within a text the pieces lead to the same line as the lines. -/
theorem line_at_eq_search {text : List Char} {offset : Nat} (h : offset < byteLength text) :
    lineAt? text offset = searchPieces? offset (piecesOf text) 0 1 := by
  rw [← lines_of_flatten text] at h
  rw [lineAt?, find_line_eq_search h, Nat.zero_add]
  rcases lines_of_pieces text with hlines | hlines
  · rw [hlines]
  · rw [hlines, search_pieces_empty]

/-! ## The end of a text -/

/-- All bytes of a text end with its last character. -/
theorem take_bytes_all (text : List Char) : takeBytes? text (byteLength text) = some text := by
  induction text with
  | nil => rfl
  | cons c rest ih =>
      have hpos := c.utf8Size_pos
      rw [byte_length_cons, takeBytes?, if_pos (Nat.le_add_right _ _), Nat.add_sub_cancel_left, ih]
      · rfl
      · omega

/-- At the end of a text its last line is found. -/
theorem line_at_end (text : List Char) : lineAt? text (byteLength text) = some (lastLine text) := by
  have hline : IsLine (text.rdropWhile (· ≠ '\n')) (text.rtakeWhile (· ≠ '\n')) [] :=
    ⟨starts_line_rdrop_while text, newline_not_mem_rtake_while text, nofun⟩
  have hfound := line_at_eq hline (Nat.le_refl _)
  have hsplit : text.rdropWhile (· ≠ '\n') ++ text.rtakeWhile (· ≠ '\n') = text :=
    List.rdropWhile_append_rtakeWhile
  have hcount : (text.rdropWhile (· ≠ '\n')).count '\n' = text.count '\n' := by
    conv_rhs => rw [← hsplit]
    rw [List.count_append, List.count_eq_zero.mpr hline.whole, Nat.add_zero]
  rw [List.append_nil, List.take_nil, List.append_nil, ← byte_length_append, hsplit,
    hcount] at hfound
  rw [hfound, lastLine, Nat.add_comm]

/-- The search has an answer for every offset, and it is the line that is found among the lines of
the text. The text is only sliced at its end, where this does not fail. -/
theorem search_line_eq (text : List Char) (offset : Nat) :
    searchLine text offset = some (lineAt? text offset) := by
  unfold searchLine
  rcases Nat.lt_trichotomy offset (byteLength text) with hwithin | rfl | hbehind
  · have hfound : ∃ line, lineAt? text offset = some line := by
      obtain ⟨before, line, after, inside, rfl, hline, rfl, hinside⟩ :=
        exists_line_of_offset (Nat.le_of_lt hwithin)
      exact ⟨_, line_at_eq hline hinside⟩
    obtain ⟨line, hline⟩ := hfound
    rw [if_neg (Nat.not_lt_of_lt hwithin), ← line_at_eq_search hwithin, hline]
  · rw [if_neg (Nat.lt_irrefl _), search_pieces_behind, take_bytes_all, line_at_end]
    · rfl
    · rw [pieces_of_flatten, Nat.zero_add]
  · have hnone : lineAt? text offset = none := by
      refine Option.eq_none_iff_forall_ne_some.mpr fun line hline ↦ ?_
      have hle := find_line_le hline
      rw [lines_of_flatten] at hle
      omega
    rw [if_pos hbehind, hnone]

/-- Inside a character there is nothing to slice off, but a piece holds the offset. -/
example : takeBytes? ['é'] 1 = none ∧ searchLine ['é'] 1 = some (some ⟨1, ['é'], 1⟩) := by decide

end Decaf
