import Decaf.Proofs.Diagnostic.Excerpts
import Mathlib

/-!
# What stands above the caret

`aboveCaret?` reads a report as it is printed: it finds the caret in the last line and takes the
character of the line before that stands right above (`above_caret_report`). In the report of an
error this is the first character that the error covers, unless nothing but white space stands from
there to the end of the line: an excerpt is shown without it (`get_trim_end`). Reading source text
and trimming a line have different notions of white space. The characters that start a token, a
string or a comment are white space in neither, so only an illegal character can be lost from the
excerpt (`Segment.Longest.illegal_of_white_space`), and `above_caret_eq` says when it is.
-/

namespace Decaf

/-- The character of a report that stands above the caret, which is in its last line. -/
def aboveCaret? (report : String) : Option Char :=
  match (linesOf report.toList).reverse with
  | _ :: pointer :: shown :: _ => shown.dropLast[pointer.idxOf '^']?
  | _ => none

/-! ## The last lines of a text -/

/-- The lines of a text that starts with whole lines are those, and then those of the rest. -/
theorem lines_of_behind {before : List Char} (h : StartsLine before) (rest : List Char) :
    ∃ lines, lines.flatten = before ∧ linesOf (before ++ rest) = lines ++ linesOf rest := by
  induction before with
  | nil => exact ⟨[], rfl, rfl⟩
  | cons c before ih =>
      obtain ⟨lines, hflatten, hlines⟩ := ih (h.of_append [c])
      by_cases hc : c = '\n'
      · refine ⟨[c] :: lines, ?_, ?_⟩
        · rw [List.flatten_cons, hflatten, List.singleton_append]
        · rw [List.cons_append, linesOf, if_pos hc, hlines, List.cons_append]
      · -- The last character is a newline and `c` is not, so there is a line to put `c` into.
        cases lines with
        | nil =>
            rw [← hflatten, List.flatten_nil] at h
            exact absurd (h c rfl) hc
        | cons line lines =>
            refine ⟨(c :: line) :: lines, ?_, ?_⟩
            · rw [List.flatten_cons, List.cons_append, ← List.flatten_cons, hflatten]
            · rw [List.cons_append, linesOf, if_neg hc, hlines]
              rfl

/-- A line and its newline end with the newline. -/
theorem StartsLine.append_line {before : List Char} (h : StartsLine before) (line : List Char) :
    StartsLine (line ++ '\n' :: before) := by
  intro c hc
  rw [List.getLast?_append, List.getLast?_cons] at hc
  cases hlast : before.getLast? with
  | none =>
      rw [hlast] at hc
      exact (Option.some.inj hc).symm
  | some d =>
      rw [hlast] at hc
      obtain rfl := Option.some.inj hc
      exact h _ hlast

/-- Lines that are each ended by a newline are whole. -/
theorem starts_line_unlines (lines : List String) : StartsLine (unlines lines).toList := by
  induction lines with
  | nil => exact nofun
  | cons line lines ih =>
      rw [to_list_unlines_cons]
      exact ih.append_line line.toList

/-- The character above the caret is the one that has as many characters before it in its line as
the caret has. -/
theorem above_caret_of_lines {report : String} {above shown before : List Char}
    (hreport : report.toList = above ++ (shown ++ '\n' :: (before ++ ['^'] ++ '\n' :: [])))
    (habove : StartsLine above) (hshown : '\n' ∉ shown) (hbefore : '\n' ∉ before)
    (hcaret : '^' ∉ before) : aboveCaret? report = shown[before.length]? := by
  have hpointer : '\n' ∉ before ++ ['^'] := by
    simp [hbefore]
  have hindex : (before ++ ['^'] ++ ['\n']).idxOf '^' = before.length := by
    rw [List.append_assoc, List.idxOf_append_of_notMem hcaret]
    rfl
  obtain ⟨lines, -, hlines⟩ := lines_of_behind habove
    (shown ++ '\n' :: (before ++ ['^'] ++ '\n' :: []))
  rw [← hreport, lines_of_append hshown, lines_of_append hpointer] at hlines
  rw [aboveCaret?, hlines, List.reverse_append]
  show (shown ++ ['\n']).dropLast[(before ++ ['^'] ++ ['\n']).idxOf '^']? = _
  rw [hindex, List.dropLast_concat]

/-! ## The last lines of a report -/

/-- What stands in front of the text that an excerpt shows. -/
def beforeShown (number : Nat) : List Char :=
  (toString number).toList ++ [' ', '|', ' ']

/-- What stands in front of the caret of an excerpt. -/
def beforeCaret (number passed : Nat) : List Char :=
  List.replicate (toString number).length ' ' ++ [' ', '|', ' '] ++ List.replicate passed '-'

/-- The caret stands as far behind the margin as the place behind the start of what is shown. -/
theorem length_before_caret (number passed : Nat) :
    (beforeCaret number passed).length = (beforeShown number).length + passed := by
  simp only [beforeCaret, beforeShown, List.length_append, List.length_replicate,
    String.length_toList]

/-- In front of the caret stand spaces, a bar and dashes. -/
theorem not_mem_before_caret {c : Char} (hc : c ∉ [' ', '|', '-']) (number passed : Nat) :
    c ∉ beforeCaret number passed := by
  simp only [List.mem_cons, List.not_mem_nil, or_false, not_or] at hc
  simp [beforeCaret, hc, List.mem_replicate]

/-- The line that is shown is not broken in front of what is shown. -/
theorem newline_not_mem_before_shown (number : Nat) : '\n' ∉ beforeShown number := by
  intro hmem
  rcases List.mem_append.mp hmem with hmem | hmem
  · exact one_line_number number hmem
  · exact absurd hmem (by decide)

/-- A report ends with what it shows and the line of the caret. -/
theorem to_list_report (error : Diagnostic) (shown : List Char) (passed : Nat) :
    ∃ above, (unlines (error.reportLines shown passed)).toList = (unlines above).toList ++
      (beforeShown error.position.line ++ shown ++
        '\n' :: (beforeCaret error.position.line passed ++ ['^'] ++ '\n' :: [])) := by
  have hbar : " | ".toList = [' ', '|', ' '] := rfl
  have hcaret : "^".toList = ['^'] := rfl
  have hnone : (unlines []).toList = [] := rfl
  refine ⟨[error.title, "-> " ++ error.span.file,
    String.ofList (List.replicate (toString error.position.line).length ' ') ++ " |"], ?_⟩
  simp only [Diagnostic.reportLines, excerptLines, beforeShown, beforeCaret, to_list_unlines_cons,
    String.toList_append, String.toList_ofList, hbar, hcaret, hnone, List.append_assoc,
    List.cons_append, List.nil_append]

/-- The character above the caret of a report is the one behind the characters that it passes. -/
theorem above_caret_report {error : Diagnostic} {shown : List Char} (passed : Nat)
    (hshown : '\n' ∉ shown) :
    aboveCaret? (unlines (error.reportLines shown passed)) = shown[passed]? := by
  obtain ⟨above, hreport⟩ := to_list_report error shown passed
  have hwhole : '\n' ∉ beforeShown error.position.line ++ shown := by
    intro hmem
    rcases List.mem_append.mp hmem with hmem | hmem
    · exact newline_not_mem_before_shown _ hmem
    · exact hshown hmem
  rw [above_caret_of_lines hreport (starts_line_unlines above) hwhole
    (not_mem_before_caret (by decide) _ _) (not_mem_before_caret (by decide) _ _),
    length_before_caret, List.getElem?_append_right (Nat.le_add_right _ _),
    Nat.add_sub_cancel_left]

/-! ## What trimming removes -/

/-- Trimming a text removes the characters that are white space and have nothing else behind
them. -/
theorem get_trim_end (text : List Char) (i : Nat) :
    (trimEnd text)[i]? =
      if ∀ c ∈ text.drop i, whiteSpace.contains c = true then none else text[i]? := by
  obtain ⟨blank, hsplit, hblank⟩ := trim_end_append text
  by_cases hi : i < (trimEnd text).length
  · -- What is left of the text ends behind this character, and not with white space.
    have hkept : ¬ ∀ c ∈ text.drop i, whiteSpace.contains c = true := by
      intro hall
      have hne : trimEnd text ≠ [] := List.ne_nil_of_length_pos (Nat.zero_lt_of_lt hi)
      obtain ⟨last, hlast⟩ := Option.isSome_iff_exists.mp (List.getLast?_isSome.mpr hne)
      have hmem : last ∈ (trimEnd text).drop i := by
        refine List.mem_of_getLast? ?_
        rw [List.getLast?_drop, if_neg (Nat.not_le.mpr hi), hlast]
      have hblank : whiteSpace.contains last = true := by
        refine hall last ?_
        rw [hsplit, List.drop_append_of_le_length hi.le]
        exact List.mem_append_left blank hmem
      rw [trim_end_get_last text last hlast] at hblank
      cases hblank
    rw [if_neg hkept]
    conv_rhs => rw [hsplit, List.getElem?_append_left hi]
  · have hlost : ∀ c ∈ text.drop i, whiteSpace.contains c = true := by
      intro c hc
      rw [hsplit, List.drop_append, List.drop_eq_nil_of_le (Nat.not_lt.mp hi)] at hc
      exact hblank c (List.mem_of_mem_drop hc)
    rw [if_pos hlost, List.getElem?_eq_none (Nat.not_lt.mp hi)]

/-! ## White space at the start of a segment -/

/-- White space is blank, except for characters that are not ASCII. -/
theorem white_space_cases {c : Char} (h : whiteSpace.contains c = true) :
    isBlank c = true ∨ 0x80 ≤ c.toNat := by
  rcases Nat.lt_or_ge c.toNat 0x80 with hascii | hother
  · have hall : ∀ n < 0x80, (∃ range ∈ whiteSpace.ranges, range.1 ≤ n ∧ n ≤ range.2) →
        isBlank (Char.ofNat n) = true := by
      decide
    have hblank := hall c.toNat hascii ((CharSet.contains_iff _ _).mp h)
    rw [Char.ofNat_toNat] at hblank
    exact Or.inl hblank
  · exact Or.inr hother

/-- Words start with ASCII characters. -/
theorem to_nat_lt_of_starts_word {c : Char} (h : startsWord c = true) : c.toNat < 0x80 := by
  simp only [startsWord, Char.isAlpha, Char.isUpper, Char.isLower, Bool.or_eq_true,
    Bool.and_eq_true, decide_eq_true_eq] at h
  rcases h with (⟨-, hle⟩ | ⟨-, hle⟩) | rfl
  · exact Nat.lt_of_le_of_lt (UInt32.le_iff_toNat_le.mp hle) (by decide)
  · exact Nat.lt_of_le_of_lt (UInt32.le_iff_toNat_le.mp hle) (by decide)
  · decide

/-- Digits are ASCII characters. -/
theorem to_nat_lt_of_digit {c : Char} (h : c.isDigit = true) : c.toNat < 0x80 := by
  simp only [Char.isDigit, Bool.and_eq_true, decide_eq_true_eq] at h
  exact Nat.lt_of_le_of_lt (UInt32.le_iff_toNat_le.mp h.2) (by decide)

/-- Neither words nor numbers start with white space. -/
theorem not_white_space {c : Char} (h : startsWord c = true ∨ c.isDigit = true) :
    whiteSpace.contains c = false := by
  refine Bool.eq_false_iff.mpr fun hspace ↦ ?_
  rcases white_space_cases hspace with hblank | hother
  · rw [not_blank h] at hblank
    cases hblank
  · exact absurd (h.elim to_nat_lt_of_starts_word to_nat_lt_of_digit) (Nat.not_lt.mpr hother)

/-- No symbol has white space in it. -/
theorem symbol_not_white_space {kind : TokenKind} {spelling : List Char}
    (h : kind.symbol? = some (String.ofList spelling)) :
    ∀ c ∈ spelling, whiteSpace.contains c = false := by
  have hall : ∀ kind ∈ TokenKind.all, ∀ symbol ∈ kind.symbol?,
      symbol.toList.all (fun c ↦ !whiteSpace.contains c) = true := by
    decide
  have hnone := hall kind kind.mem_all _ h
  rw [String.toList_ofList, List.all_eq_true] at hnone
  exact fun c hc ↦ by simpa using hnone c hc

/-- Other than a blank, only an illegal character is white space where it starts. -/
theorem Segment.Longest.illegal_of_white_space {segment : Segment} {after rest : List Char}
    {c : Char} (h : segment.Longest after) (hrole : segment.role ≠ .blank)
    (htext : segment.text = c :: rest) (hc : whiteSpace.contains c = true) :
    segment = .illegal c := by
  have hmem : c ∈ segment.text := by
    rw [htext]
    exact List.mem_cons_self
  cases h with
  | blank => exact absurd rfl hrole
  | lineComment | blockComment | openComment =>
      obtain rfl := (List.cons.inj htext).1
      cases hc
  | string | openString =>
      obtain rfl := (List.cons.inj htext).1
      cases hc
  | word hletters =>
      obtain ⟨first, tail, rfl, hstarts, -⟩ := hletters
      obtain rfl := (List.cons.inj htext).1
      rw [not_white_space (Or.inl hstarts)] at hc
      cases hc
  | number hdigits =>
      rw [not_white_space (Or.inr (hdigits.2 c hmem))] at hc
      cases hc
  | symbol hsymbol =>
      rw [symbol_not_white_space hsymbol c hmem] at hc
      cases hc
  | illegal =>
      obtain rfl := (List.cons.inj htext).1
      rfl

/-- An error of a segment that starts with white space is that of an illegal character. -/
theorem cause_of_white_space {text rest : List Char} {before after : List Segment}
    {segment : Segment} {cause : Cause} {c : Char}
    (hsplit : segments text = before ++ segment :: after)
    (hheld : segment.fault? = some cause ∨ ∃ meaning, segment.meaning? = some meaning)
    (htext : segment.text = c :: rest) (hc : whiteSpace.contains c = true) :
    cause = .illegalCharacter c := by
  have hrole : segment.role ≠ .blank :=
    hheld.elim role_ne_of_fault fun ⟨_, hmeaning⟩ ↦ role_ne_of_meaning hmeaning
  rw [(segments_longest hsplit).illegal_of_white_space hrole htext hc] at hheld
  rcases hheld with hfault | ⟨_, hmeaning⟩
  · exact (Option.some.inj hfault).symm
  · cases hmeaning

/-! ## Reports of errors -/

section

variable {source file : String} {error : Diagnostic}

/-- What is shown behind a place is the rest of its line. -/
theorem Surroundings.right_eq (parts : Surroundings source.toList error.position) :
    (parts.right ++ parts.after).takeWhile staysInLine = parts.right := by
  refine (take_while_longest (fun c hc ↦ ?_) fun c hc ↦ ?_).1
  · have hnewline : c ≠ '\n' := by
      rintro rfl
      exact parts.is_line.whole (List.mem_append_right _ (List.mem_append_right _ hc))
    simpa [staysInLine] using hnewline
  · rw [parts.is_line.ends c hc]
    rfl

/-- The character above the caret of a report is the one at the place of the error, unless trimming
has removed it. -/
theorem Surroundings.above_caret (parts : Surroundings source.toList error.position) :
    aboveCaret? (error.render source) =
      if ∀ d ∈ parts.right, whiteSpace.contains d = true then none else parts.right.head? := by
  have hshown : '\n' ∉ trimEnd (parts.left ++ parts.right) := by
    obtain ⟨blank, hsplit, -⟩ := trim_end_append (parts.left ++ parts.right)
    intro hmem
    refine parts.is_line.whole (List.mem_append_right _ ?_)
    rw [hsplit]
    exact List.mem_append_left blank hmem
  rw [render_eq parts, above_caret_report _ hshown, get_trim_end, List.drop_left,
    List.getElem?_append_right (Nat.le_refl _), Nat.sub_self, ← List.head?_eq_getElem?]

/-- The character above the caret, in the report of an error that is not the end of input, is the
first that the error covers. There is none if this is an illegal character that is white space, and
nothing but white space follows it in its line. -/
theorem above_caret_eq (h : error.Reported source file)
    (hcause : error.cause ≠ .unexpectedEndOfInput) :
    ∃ c rest, dropBytes? source.toList error.span.start.offset = some (c :: rest) ∧
      error.span.start.offset < error.span.stop.offset ∧
      aboveCaret? (error.render source) =
        if error.cause = .illegalCharacter c ∧
          ∀ d ∈ (c :: rest).takeWhile staysInLine, whiteSpace.contains d = true then none
        else some c := by
  obtain ⟨parts, hright⟩ := reported_surroundings h
  obtain ⟨-, ⟨-, before, segment, after, hsplit, hheld, hspan⟩ | ⟨hends, -⟩⟩ := reported_place h
  · obtain ⟨c, tail, htext⟩ := List.exists_cons_of_ne_nil (segments_text_ne_nil hsplit)
    have hstart : error.span.start.offset = byteLength (before.flatMap Segment.text) := by
      rw [hspan]
      exact place_behind_offset before
    have hstop : error.span.stop.offset = error.span.start.offset + byteLength segment.text := by
      rw [hspan]
      exact Position.advance_offset _ _
    have hdrop : dropBytes? source.toList error.span.start.offset =
        some (c :: (tail ++ after.flatMap Segment.text)) := by
      rw [hstart, text_of_split hsplit, drop_bytes_append, htext, List.cons_append]
    have hback : parts.right ++ parts.after = c :: (tail ++ after.flatMap Segment.text) :=
      Option.some.inj (parts.drop_bytes.symm.trans hdrop)
    have hhead : parts.right.head? = some c := by
      obtain ⟨d, right, hcons⟩ := List.exists_cons_of_ne_nil (hright hcause)
      rw [hcons] at hback
      rw [hcons, (List.cons.inj hback).1, List.head?_cons]
    have hlost : (∀ d ∈ parts.right, whiteSpace.contains d = true) ↔
        error.cause = .illegalCharacter c ∧ ∀ d ∈ parts.right, whiteSpace.contains d = true :=
      ⟨fun hall ↦ ⟨cause_of_white_space hsplit hheld htext (hall c (List.mem_of_head? hhead)), hall⟩,
        And.right⟩
    refine ⟨c, _, hdrop, ?_, ?_⟩
    · have hpos := byte_length_pos (segments_text_ne_nil hsplit)
      omega
    · rw [parts.above_caret, hhead, ← hback, parts.right_eq]
      exact if_congr hlost rfl rfl
  · exact absurd hends hcause

/-- The caret under an illegal character that is no white space. -/
theorem above_caret_eq_illegal :
    (⟨.illegalCharacter '@', "f", ⟨2, 1, 3⟩, ⟨3, 1, 4⟩⟩ : Diagnostic).Reported "x @ y\n" "f" ∧
      Cause.illegalCharacter '@' ≠ .unexpectedEndOfInput ∧
      ∃ c rest, dropBytes? "x @ y\n".toList 2 = some (c :: rest) ∧
        aboveCaret? ((⟨.illegalCharacter '@', "f", ⟨2, 1, 3⟩, ⟨3, 1, 4⟩⟩ : Diagnostic).render
          "x @ y\n") = some c := by
  have hreported : (⟨.illegalCharacter '@', "f", ⟨2, 1, 3⟩, ⟨3, 1, 4⟩⟩ : Diagnostic).Reported
      "x @ y\n" "f" :=
    Or.inl (by decide +kernel)
  refine ⟨hreported, nofun, ?_⟩
  obtain ⟨c, rest, hdrop, -, habove⟩ := above_caret_eq hreported nofun
  have hrest : dropBytes? "x @ y\n".toList 2 = some ['@', ' ', 'y', '\n'] := by decide +kernel
  obtain ⟨rfl, rfl⟩ := List.cons.inj (Option.some.inj (hrest.symm.trans hdrop))
  have hshown : whiteSpace.contains '@' = false := by decide
  refine ⟨_, _, hrest, habove.trans (if_neg fun hlost ↦ ?_)⟩
  rw [hlost.2 '@' List.mem_cons_self] at hshown
  cases hshown

/-- A no-break space at the end of a line is illegal, and has no character above its caret. -/
theorem above_caret_lost :
    ∃ error ∈ (tokenize "int x;\u00a0\n" "f").diagnostics,
      error.cause = .illegalCharacter '\u00a0' ∧
      dropBytes? "int x;\u00a0\n".toList error.span.start.offset = some ['\u00a0', '\n'] ∧
      aboveCaret? (error.render "int x;\u00a0\n") = none := by
  refine ⟨⟨.illegalCharacter '\u00a0', "f", ⟨6, 1, 7⟩, ⟨8, 1, 8⟩⟩, ?_, rfl, ?_, ?_⟩
  · decide +kernel
  · decide +kernel
  · decide +kernel

end

end Decaf
