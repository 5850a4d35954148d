import Decaf.Proofs.Source.Lines

/-!
# The line of a byte offset

`lineAt?` looks through the lines of a text. `LineAt.Around` says what it has to find in terms of
the stored bytes alone, also for an offset inside a character: how many newlines lie before the
offset, where the line starts, and how far it goes. Every offset within a text falls into one of its
lines (`exists_line_of_offset`), and a line is around the offsets within it (`around_of_is_line`).
Since only one line can be around an offset (`LineAt.Around.unique`), this is exactly what is found
(`line_at_exact`).
-/

namespace Decaf

/-! ## Stored bytes -/

/-- The bytes of a text as it is stored. -/
def bytesOf (text : List Char) : List UInt8 :=
  text.flatMap String.utf8EncodeChar

/-- The byte of a newline. -/
def newlineByte : UInt8 := 10

/-- The bytes of a text are those of its string. -/
theorem to_byte_array_of_list (text : List Char) :
    (String.ofList text).toByteArray = (bytesOf text).toByteArray :=
  String.toByteArray_ofList

/-- The bytes of joined texts are joined. -/
theorem bytes_of_append (first second : List Char) :
    bytesOf (first ++ second) = bytesOf first ++ bytesOf second :=
  List.flatMap_append

/-- The bytes of a text tell it from all others. -/
theorem bytes_of_injective : Function.Injective bytesOf := by
  intro first second h
  refine String.ofList_injective (String.toByteArray_inj.mp ?_)
  rw [to_byte_array_of_list, to_byte_array_of_list, h]

/-- A text has as many bytes as it is long. -/
theorem length_bytes_of (text : List Char) : (bytesOf text).length = byteLength text := by
  induction text with
  | nil => rfl
  | cons c text ih =>
      rw [bytesOf, List.flatMap_cons, List.length_append, String.length_utf8EncodeChar,
        byte_length_cons]
      exact congrArg _ ih

/-- Only the newline has the byte of a newline. -/
theorem newline_byte_not_mem_encode {c : Char} (h : c ≠ '\n') :
    newlineByte ∉ String.utf8EncodeChar c := by
  have hbyte {n : Nat} (hn : n % 256 ≠ 10) : newlineByte ≠ UInt8.ofNat n := by
    intro heq
    have hvalue := congrArg UInt8.toNat heq
    rw [UInt8.toNat_ofNat'] at hvalue
    exact hn hvalue.symm
  -- All bytes of a character of more than one byte are above the ASCII range.
  fun_cases String.utf8EncodeChar c with
  | case1 code hsmall =>
      have hcode : code ≠ 10 := fun heq ↦ h (Char.toNat_inj.mp heq)
      exact List.not_mem_cons_of_ne_of_not_mem (hbyte (by omega)) List.not_mem_nil
  | case2 =>
      simp only [List.mem_cons, List.not_mem_nil, or_false, not_or]
      exact ⟨hbyte (by omega), hbyte (by omega)⟩
  | case3 =>
      simp only [List.mem_cons, List.not_mem_nil, or_false, not_or]
      exact ⟨hbyte (by omega), hbyte (by omega), hbyte (by omega)⟩
  | case4 =>
      simp only [List.mem_cons, List.not_mem_nil, or_false, not_or]
      exact ⟨hbyte (by omega), hbyte (by omega), hbyte (by omega), hbyte (by omega)⟩

/-- A text has the byte of a newline for each of its newlines. -/
theorem count_newline_byte (text : List Char) :
    (bytesOf text).count newlineByte = text.count '\n' := by
  induction text with
  | nil => rfl
  | cons c text ih =>
      rw [bytesOf, List.flatMap_cons, List.count_append, List.count_cons, Nat.add_comm]
      refine congrArg₂ _ ih ?_
      by_cases hc : c = '\n'
      · rw [hc]
        rfl
      · rw [List.count_eq_zero.mpr (newline_byte_not_mem_encode hc)]
        simp [hc]

/-- A text without newlines has no byte of one. -/
theorem newline_byte_not_mem {text : List Char} (h : '\n' ∉ text) :
    newlineByte ∉ bytesOf text := by
  rw [← List.count_eq_zero, count_newline_byte, List.count_eq_zero]
  exact h

/-- The bytes up to the first newline and with it, or all of them if there is none. -/
def firstLine (bytes : List UInt8) : List UInt8 :=
  bytes.takeWhile (· ≠ newlineByte) ++ (bytes.dropWhile (· ≠ newlineByte)).take 1

/-! ## The line around an offset -/

/-- What a line is around an offset into some bytes: its number counts the newlines before the
offset, it starts with the bytes or behind a newline, no newline lies between its start and the
offset, and it goes on from there up to the next newline and with it, or to the end. -/
structure LineAt.Around (line : LineAt) (bytes : List UInt8) (offset : Nat) : Prop where
  offset_le : line.offset ≤ offset
  number_eq : line.number = 1 + (bytes.take offset).count newlineByte
  starts : offset - line.offset = 0 ∨ bytes[offset - line.offset - 1]? = some newlineByte
  unbroken : newlineByte ∉ (bytes.drop (offset - line.offset)).take line.offset
  text_eq : bytesOf line.text = firstLine (bytes.drop (offset - line.offset))

section

variable {bytes : List UInt8} {offset : Nat} {line other : LineAt}

/-- No line around an offset starts behind another. -/
theorem LineAt.Around.start_le (h : line.Around bytes offset) (hother : other.Around bytes offset) :
    offset - line.offset ≤ offset - other.offset := by
  refine Nat.le_of_not_lt fun hlt ↦ ?_
  have hle := hother.offset_le
  rcases h.starts with hstart | hnewline
  · omega
  · -- The newline in front of the later line would lie within the other one.
    refine hother.unbroken (List.mem_iff_getElem?.mpr
      ⟨offset - line.offset - 1 - (offset - other.offset), ?_⟩)
    rw [List.getElem?_take_of_lt (by omega), List.getElem?_drop,
      Nat.add_sub_cancel' (by omega), hnewline]

/-- Only one line is around an offset. -/
theorem LineAt.Around.unique (h : line.Around bytes offset) (hother : other.Around bytes offset) :
    line = other := by
  have hstart := Nat.le_antisymm (h.start_le hother) (hother.start_le h)
  have htext : line.text = other.text :=
    bytes_of_injective (by rw [h.text_eq, hother.text_eq, hstart])
  have hoffset : line.offset = other.offset := by
    have hle := h.offset_le
    have hotherLe := hother.offset_le
    omega
  obtain ⟨number, text, inside⟩ := line
  obtain ⟨otherNumber, otherText, otherInside⟩ := other
  rw [LineAt.mk.injEq]
  exact ⟨h.number_eq.trans hother.number_eq.symm, htext, hoffset⟩

end

section

variable {before line after : List Char} {inside : Nat}

/-- The bytes from the start of a line on begin with those of the line and its newline. -/
theorem first_line_of_is_line (h : IsLine before line after) :
    firstLine (bytesOf (line ++ after)) = bytesOf (line ++ after.take 1) := by
  have hline : ∀ byte ∈ bytesOf line, decide (byte ≠ newlineByte) = true :=
    fun byte hbyte ↦ decide_eq_true (ne_of_mem_of_not_mem hbyte (newline_byte_not_mem h.whole))
  rw [firstLine, bytes_of_append, List.takeWhile_append_of_pos hline,
    List.dropWhile_append_of_pos hline, bytes_of_append]
  rcases h.ends.cases with rfl | ⟨rest, rfl⟩
  · simp [bytesOf]
  · have hrest : bytesOf ('\n' :: rest) = newlineByte :: bytesOf rest := rfl
    simp [hrest]
    rfl

/-- A line is around the offsets within it and the one just past its characters. -/
theorem around_of_is_line (h : IsLine before line after) (hinside : inside ≤ byteLength line) :
    LineAt.Around ⟨1 + before.count '\n', line ++ after.take 1, inside⟩
      (bytesOf (before ++ (line ++ after))) (byteLength before + inside) := by
  have hlength := length_bytes_of before
  have hinline : (bytesOf (line ++ after)).take inside = (bytesOf line).take inside := by
    rw [bytes_of_append, List.take_append_of_le_length (by rwa [length_bytes_of])]
  have hunbroken : newlineByte ∉ (bytesOf line).take inside :=
    fun hmem ↦ newline_byte_not_mem h.whole (List.mem_of_mem_take hmem)
  constructor <;> simp only [Nat.add_sub_cancel]
  case offset_le => exact Nat.le_add_left _ _
  case number_eq =>
    rw [bytes_of_append, ← hlength, List.take_length_add_append, hinline, List.count_append,
      count_newline_byte, List.count_eq_zero.mpr hunbroken, Nat.add_zero]
  case starts =>
    rcases List.eq_nil_or_concat' before with rfl | ⟨init, c, rfl⟩
    · exact Or.inl rfl
    · obtain rfl : c = '\n' := h.starts c (by simp)
      have hbytes : bytesOf (init ++ ['\n'] ++ (line ++ after)) =
          bytesOf init ++ newlineByte :: bytesOf (line ++ after) := by
        rw [bytes_of_append, bytes_of_append, List.append_assoc]
        rfl
      have hlast : byteLength (init ++ ['\n']) - 1 = (bytesOf init).length := by
        rw [byte_length_append, length_bytes_of]
        rfl
      rw [hbytes, hlast, List.getElem?_append_right (Nat.le_refl _), Nat.sub_self]
      exact Or.inr rfl
  case unbroken =>
    rw [bytes_of_append, ← hlength, List.drop_left, hinline]
    exact hunbroken
  case text_eq =>
    rw [bytes_of_append before, ← hlength, List.drop_left, first_line_of_is_line h]

end

/-! ## Every offset has its line -/

/-- Up to an offset a text has whole characters, and perhaps a part of the next one. -/
theorem exists_front {text : List Char} {offset : Nat} (h : offset ≤ byteLength text) :
    ∃ front back part, text = front ++ back ∧ offset = byteLength front + part ∧
      (part = 0 ∨ ∃ c ∈ back.head?, part < c.utf8Size) := by
  induction text generalizing offset with
  | nil => exact ⟨[], [], 0, rfl, Nat.le_zero.mp h, Or.inl rfl⟩
  | cons c text ih =>
      by_cases hfits : offset < c.utf8Size
      · exact ⟨[], c :: text, offset, rfl, (Nat.zero_add _).symm, Or.inr ⟨c, rfl, hfits⟩⟩
      · rw [byte_length_cons] at h
        obtain ⟨front, back, part, rfl, hoffset, hpart⟩ :=
          ih (show offset - c.utf8Size ≤ byteLength text by omega)
        refine ⟨c :: front, back, part, rfl, ?_, hpart⟩
        rw [byte_length_cons, Nat.add_assoc, ← hoffset, Nat.add_sub_of_le (Nat.le_of_not_lt hfits)]

/-- Every offset within a text lies in a line of it, or just past its characters. -/
theorem exists_line_of_offset {text : List Char} {offset : Nat} (h : offset ≤ byteLength text) :
    ∃ before line after inside, text = before ++ (line ++ after) ∧ IsLine before line after ∧
      offset = byteLength before + inside ∧ inside ≤ byteLength line := by
  obtain ⟨front, back, part, rfl, rfl, hpart⟩ := exists_front h
  obtain ⟨before, left, right, after, rfl, rfl, hline⟩ := exists_line_around front back
  refine ⟨before, left ++ right, after, byteLength left + part, ?_, hline, ?_, ?_⟩
  · simp only [List.append_assoc]
  · rw [byte_length_append, Nat.add_assoc]
  · rw [byte_length_append, Nat.add_le_add_iff_left]
    rcases hpart with rfl | ⟨c, hc, hpart⟩
    · exact Nat.zero_le _
    · cases right with
      | cons d right =>
          obtain rfl := Option.some.inj hc
          rw [byte_length_cons]
          omega
      | nil =>
          -- A newline has one byte only, so the offset is in front of it.
          obtain rfl := hline.ends c hc
          exact Nat.le_of_lt_succ hpart

/-- What is found holds the offset. -/
theorem find_line_le {lines : List (List Char)} {number offset : Nat} {line : LineAt}
    (h : findLine? lines number offset = some line) : offset ≤ byteLength lines.flatten := by
  fun_induction findLine? lines number offset with
  | case1 => cases h
  | case2 number offset last hle => rwa [List.flatten_singleton]
  | case3 => cases h
  | case4 number offset first next lines hlt =>
      rw [List.flatten_cons, byte_length_append]
      omega
  | case5 number offset first next lines hge ih =>
      have hle := ih h
      rw [List.flatten_cons, byte_length_append]
      omega

/-- The line that is found for a byte offset is the one around it, also when the offset lies inside
a character, and there is none exactly when the offset lies behind the text. -/
theorem line_at_exact (content : String) (offset : Nat) :
    (lineAt? content.toList offset = none ↔ content.utf8ByteSize < offset) ∧
      ∀ line, lineAt? content.toList offset = some line ↔
        offset ≤ content.utf8ByteSize ∧ line.Around (bytesOf content.toList) offset := by
  have hwithin {line : LineAt} (hline : lineAt? content.toList offset = some line) :
      offset ≤ content.utf8ByteSize := by
    rw [← byte_length_to_list, ← lines_of_flatten content.toList]
    exact find_line_le hline
  have hfound (hle : offset ≤ content.utf8ByteSize) :
      ∃ line, lineAt? content.toList offset = some line ∧
        line.Around (bytesOf content.toList) offset := by
    rw [← byte_length_to_list] at hle
    obtain ⟨before, line, after, inside, hcontent, hline, rfl, hinside⟩ :=
      exists_line_of_offset hle
    rw [hcontent]
    exact ⟨_, line_at_eq hline hinside, around_of_is_line hline hinside⟩
  constructor
  · constructor
    · intro hnone
      refine Nat.lt_of_not_le fun hle ↦ ?_
      obtain ⟨line, hline, -⟩ := hfound hle
      rw [hnone] at hline
      cases hline
    · intro hlt
      refine Option.eq_none_iff_forall_ne_some.mpr fun line hline ↦ ?_
      exact Nat.not_le_of_lt hlt (hwithin hline)
  · intro line
    constructor
    · intro hline
      have hle := hwithin hline
      obtain ⟨found, hfind, haround⟩ := hfound hle
      obtain rfl := Option.some.inj (hline.symm.trans hfind)
      exact ⟨hle, haround⟩
    · rintro ⟨hle, haround⟩
      obtain ⟨found, hfind, hother⟩ := hfound hle
      rw [haround.unique hother]
      exact hfind

/-- Behind a newline at the end of a text there is an empty line. -/
example : lineAt? "é\n".toList 3 = some ⟨2, [], 0⟩ := by decide +kernel

/-- Inside a character its line is found. -/
example : lineAt? "\naé\n".toList 3 = some ⟨2, ['a', 'é', '\n'], 2⟩ := by decide +kernel

end Decaf
