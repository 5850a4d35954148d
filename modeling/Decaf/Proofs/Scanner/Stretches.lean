import Decaf.Scanner.Segment

/-!
# How far characters go

A scan takes characters as long as they satisfy a condition, and looks for the first end of a
comment. `take_while_longest` and `split_comment_end_first` say where this stops, and
`head_drop_while` and `split_comment_end_none` what is then left. The characters that start the
different forms of segments are apart from each other (`not_blank`, `not_starts_word_of_digit`).
-/

namespace Decaf

/-! ## Characters that start something -/

/-- Blanks are the six listed characters. -/
theorem is_blank_iff {c : Char} :
    isBlank c = true ↔ c ∈ [' ', '\t', '\r', '\n', '\x0b', '\x0c'] := by
  simp [isBlank, or_assoc]

/-- A blank starts nothing else. -/
theorem not_blank {c : Char} (h : startsWord c = true ∨ c.isDigit = true) :
    isBlank c = false := by
  cases hblank : isBlank c with
  | false => rfl
  | true =>
      have hnone : [' ', '\t', '\r', '\n', '\x0b', '\x0c'].all
          (fun c ↦ !startsWord c && !c.isDigit) = true := by
        decide
      have hc := List.all_eq_true.mp hnone c (is_blank_iff.mp hblank)
      rcases h with hword | hdigit
      · simp [hword] at hc
      · simp [hdigit] at hc

/-- No word starts with a digit. -/
theorem not_starts_word_of_digit {c : Char} (h : c.isDigit = true) : startsWord c = false := by
  have hunderscore : c ≠ '_' := by
    rintro rfl
    cases h
  have halpha : c.isAlpha = (c.isUpper || c.isLower) := rfl
  have hupper : c.isUpper = decide (c.val ≥ 'A'.val ∧ c.val ≤ 'Z'.val) := rfl
  have hlower : c.isLower = (decide (c.val ≥ 'a'.val) && decide (c.val ≤ 'z'.val)) := rfl
  simp only [Char.isDigit, Bool.and_eq_true, decide_eq_true_eq] at h
  simp only [startsWord, halpha, hupper, hlower, hunderscore]
  grind

/-- Words go on with the characters that start words, and with digits. -/
theorem continues_word_eq (c : Char) : continuesWord c = (startsWord c || c.isDigit) := by
  simp only [continuesWord, startsWord, Char.isAlphanum, Bool.or_assoc]
  rw [Bool.or_comm c.isDigit]

/-! ## Characters that satisfy a condition -/

/-- What follows the characters that satisfy a condition does not go on with one. -/
theorem head_drop_while (keep : Char → Bool) (text : List Char) :
    ∀ c ∈ (text.dropWhile keep).head?, keep c = false := by
  intro c hc
  have hstops := List.head?_dropWhile_not keep text
  rwa [hc] at hstops

/-- A character that does not satisfy a condition is not among those that do. -/
theorem take_while_not_mem {c : Char} {keep : Char → Bool} (h : keep c = false)
    (text : List Char) : c ∉ text.takeWhile keep := by
  intro hmem
  rw [List.all_eq_true.mp List.all_takeWhile _ hmem] at h
  cases h

/-- Characters that satisfy a condition are taken as far as they go. -/
theorem take_while_longest {keep : Char → Bool} {text after : List Char}
    (htext : ∀ c ∈ text, keep c = true) (hafter : ∀ c ∈ after.head?, keep c = false) :
    (text ++ after).takeWhile keep = text ∧ (text ++ after).dropWhile keep = after := by
  rw [List.takeWhile_append_of_pos htext, List.dropWhile_append_of_pos htext]
  cases after with
  | nil => exact ⟨List.append_nil text, rfl⟩
  | cons c after =>
      have hc : keep c = false := hafter c rfl
      simp [hc]

/-! ## The end of a comment -/

/-- A star does not close a comment where a slash cannot follow. -/
theorem not_infix_cons {c : Char} {rest : List Char} (hrest : ¬ ['*', '/'] <:+: rest)
    (h : ∀ after, c = '*' → rest = '/' :: after → False) : ¬ ['*', '/'] <:+: c :: rest := by
  rw [List.infix_cons_iff]
  rintro (⟨after, heq⟩ | htail)
  · obtain ⟨rfl, rfl⟩ := List.cons.inj heq
    exact h after rfl rfl
  · exact hrest htail

/-- A comment ends at the first place where it can. -/
theorem split_comment_end_first {text body after : List Char}
    (h : splitCommentEnd? text = some (body, after)) : ¬ ['*', '/'] <:+: body ++ ['*'] := by
  fun_induction splitCommentEnd? text generalizing body with
  | case1 => cases h
  | case2 rest =>
      obtain ⟨rfl, rfl⟩ := Prod.mk.inj (Option.some.inj h)
      decide
  | case3 c rest hopen ih =>
      obtain ⟨⟨inner, tail⟩, hparts, heq⟩ := Option.map_eq_some_iff.mp h
      obtain ⟨rfl, rfl⟩ := Prod.mk.inj heq
      refine not_infix_cons (ih hparts) fun after hstar hslash ↦ ?_
      cases inner with
      | nil => cases hslash
      | cons head inner =>
          obtain ⟨rfl, -⟩ := List.cons.inj hslash
          exact hopen _ hstar (split_comment_end_append hparts).symm

/-- A text without the end of a comment has none anywhere. -/
theorem split_comment_end_none {text : List Char} (h : splitCommentEnd? text = none) :
    ¬ ['*', '/'] <:+: text := by
  fun_induction splitCommentEnd? text with
  | case1 => decide
  | case2 rest => cases h
  | case3 c rest hopen ih => exact not_infix_cons (ih (Option.map_eq_none_iff.mp h)) hopen

/-- A comment up to the first place where it can end ends there. -/
theorem split_comment_end_of_first {body : List Char} (after : List Char)
    (h : ¬ ['*', '/'] <:+: body ++ ['*']) :
    splitCommentEnd? (body ++ '*' :: '/' :: after) = some (body, after) := by
  induction body with
  | nil => rfl
  | cons c body ih =>
      have hopen (rest : List Char) (hstar : c = '*')
          (hslash : body ++ '*' :: '/' :: after = '/' :: rest) : False := by
        cases body with
        | nil => cases hslash
        | cons d body =>
            obtain ⟨rfl, -⟩ := List.cons.inj hslash
            exact h ⟨[], body ++ ['*'], by rw [hstar]; rfl⟩
      rw [List.cons_append, splitCommentEnd?, ih fun hinfix ↦ h (List.infix_cons hinfix)]
      · rfl
      · exact hopen

/-- A comment without an end has none to find. -/
theorem split_comment_end_of_none {body : List Char} (h : ¬ ['*', '/'] <:+: body) :
    splitCommentEnd? body = none := by
  cases hsplit : splitCommentEnd? body with
  | none => rfl
  | some parts =>
      refine absurd ⟨parts.1, parts.2, ?_⟩ h
      rw [List.append_assoc]
      exact split_comment_end_append hsplit

end Decaf
