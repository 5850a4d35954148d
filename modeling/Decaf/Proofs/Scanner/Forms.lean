import Decaf.Proofs.Scanner.Division

/-!
# The forms of segments

`IsBlankText`, `IsLineComment` and `IsBlockComment` describe the three forms of text that are
skipped by what they look like, and `Segment.Longest.formed` shows that a segment has such a form
exactly when it is one of them: no token and no faulty piece looks like a blank or a comment. Nor
does a token span a newline (`Segment.Longest.no_newline`).
-/

namespace Decaf

/-- A single blank. -/
def IsBlankText (text : List Char) : Prop :=
  ∃ c ∈ [' ', '\t', '\r', '\n', '\x0b', '\x0c'], text = [c]

/-- A comment from two slashes up to, and without, the end of the line or of the input. -/
def IsLineComment (text after : List Char) : Prop :=
  ∃ body, text = '/' :: '/' :: body ∧ '\n' ∉ body ∧ (after = [] ∨ ∃ rest, after = '\n' :: rest)

/-- A comment between a slash with a star and the first star with a slash behind them. -/
def IsBlockComment (text : List Char) : Prop :=
  ∃ body, text = '/' :: '*' :: body ++ ['*', '/'] ∧ ¬ ['*', '/'] <:+: body ++ ['*']

/-- A text with another first character is no blank. -/
theorem not_is_blank_text {c : Char} {tail : List Char} (h : isBlank c = false) :
    ¬ IsBlankText (c :: tail) := by
  intro htext
  obtain ⟨found, hfound, heq⟩ := htext
  rw [← (List.cons.inj heq).1, ← is_blank_iff, h] at hfound
  cases hfound

/-- A text with another first character is no comment to the end of the line. -/
theorem not_is_line_comment {c : Char} {tail after : List Char} (h : c ≠ '/') :
    ¬ IsLineComment (c :: tail) after := by
  intro hcomment
  obtain ⟨body, heq, -⟩ := hcomment
  exact h (List.cons.inj heq).1

/-- A text with another first character is no closed comment. -/
theorem not_is_block_comment {c : Char} {tail : List Char} (h : c ≠ '/') :
    ¬ IsBlockComment (c :: tail) := by
  intro hcomment
  obtain ⟨body, heq, -⟩ := hcomment
  exact h (List.cons.inj heq).1

/-- A comment to the end of the line has at least two characters. -/
theorem not_is_line_comment_singleton {c : Char} {after : List Char} :
    ¬ IsLineComment [c] after := by
  intro hcomment
  obtain ⟨body, heq, -⟩ := hcomment
  cases (List.cons.inj heq).2

/-- A closed comment has at least two characters. -/
theorem not_is_block_comment_singleton {c : Char} : ¬ IsBlockComment [c] := by
  intro hcomment
  obtain ⟨body, heq, -⟩ := hcomment
  cases (List.cons.inj heq).2

/-- A text with another second character is no comment to the end of the line. -/
theorem not_is_line_comment_second {c : Char} {tail after : List Char} (h : c ≠ '/') :
    ¬ IsLineComment ('/' :: c :: tail) after := by
  intro hcomment
  obtain ⟨body, heq, -⟩ := hcomment
  exact h (List.cons.inj (List.cons.inj heq).2).1

/-- A text with another second character is no closed comment. -/
theorem not_is_block_comment_second {c : Char} {tail : List Char} (h : c ≠ '*') :
    ¬ IsBlockComment ('/' :: c :: tail) := by
  intro hcomment
  obtain ⟨body, heq, -⟩ := hcomment
  exact h (List.cons.inj (List.cons.inj heq).2).1

/-- What a unit of source text can be. -/
inductive Role where
  | blank
  | lineComment
  | blockComment
  | token
  | diagnostic
deriving DecidableEq, Repr

/-- What a segment is. A number is a token, also when it is out of range. -/
def Segment.role : Segment → Role
  | .blank _ => .blank
  | .lineComment _ => .lineComment
  | .blockComment _ => .blockComment
  | .word _ | .number _ | .string _ | .symbol _ _ => .token
  | .openComment _ | .openString _ | .illegal _ => .diagnostic

/-- The segments that hold a token. -/
theorem meaning_iff_role {segment : Segment} :
    (∃ meaning, segment.meaning? = some meaning) ↔ segment.role = .token := by
  cases segment <;> simp [Segment.meaning?, Segment.role]

/-- A segment looks like one of the skipped forms exactly when it is one. -/
structure Segment.Formed (segment : Segment) (after : List Char) : Prop where
  blank : IsBlankText segment.text ↔ segment.role = .blank
  line : IsLineComment segment.text after ↔ segment.role = .lineComment
  block : IsBlockComment segment.text ↔ segment.role = .blockComment

/-- A segment whose first character starts no skipped form is a token or a diagnostic. -/
theorem formed_of_head {segment : Segment} {c : Char} {tail after : List Char}
    (htext : segment.text = c :: tail) (hblank : isBlank c = false) (hslash : c ≠ '/')
    (hrole : segment.role = .token ∨ segment.role = .diagnostic) : segment.Formed after := by
  have hother : segment.role ≠ .blank ∧ segment.role ≠ .lineComment ∧
      segment.role ≠ .blockComment := by
    rcases hrole with h | h <;> rw [h] <;> decide
  constructor
  · rw [htext]
    exact iff_of_false (not_is_blank_text hblank) hother.1
  · rw [htext]
    exact iff_of_false (not_is_line_comment hslash) hother.2.1
  · rw [htext]
    exact iff_of_false (not_is_block_comment hslash) hother.2.2

/-- A blank is a single character, and no comment. -/
theorem blank_formed {c : Char} {after : List Char} (h : isBlank c = true) :
    (Segment.blank c).Formed after where
  blank := iff_of_true ⟨c, is_blank_iff.mp h, rfl⟩ rfl
  line := iff_of_false not_is_line_comment_singleton nofun
  block := iff_of_false not_is_block_comment_singleton nofun

/-- A segment looks like a skipped form exactly when it is one. -/
theorem Segment.Longest.formed {segment : Segment} {after : List Char}
    (h : segment.Longest after) : segment.Formed after := by
  -- Only a slash starts two forms that are skipped, so its segments are told by what comes second.
  have hblank (tail : List Char) : ¬ IsBlankText ('/' :: tail) := not_is_blank_text (by decide)
  cases h with
  | blank hc => exact blank_formed hc
  | lineComment hbody hafter =>
      constructor
      · exact iff_of_false (hblank _) nofun
      · exact iff_of_true ⟨_, rfl, hbody, hafter.cases⟩ rfl
      · exact iff_of_false (not_is_block_comment_second (by decide)) nofun
  | blockComment hbody =>
      constructor
      · exact iff_of_false (hblank _) nofun
      · exact iff_of_false (not_is_line_comment_second (by decide)) nofun
      · exact iff_of_true ⟨_, rfl, hbody⟩ rfl
  | openComment hopen =>
      constructor
      · exact iff_of_false (hblank _) nofun
      · exact iff_of_false (not_is_line_comment_second (by decide)) nofun
      · refine iff_of_false ?_ nofun
        rintro ⟨body, heq, -⟩
        obtain rfl := (List.cons.inj (List.cons.inj heq).2).2
        exact hopen ⟨body, [], List.append_nil _⟩
  | word hletters =>
      obtain ⟨c, rest, rfl, hstarts, -⟩ := hletters
      refine formed_of_head rfl (not_blank (Or.inl hstarts)) ?_ (Or.inl rfl)
      rintro rfl
      cases hstarts
  | number hdigits =>
      obtain ⟨c, rest, rfl⟩ := List.exists_cons_of_ne_nil hdigits.1
      have hdigit : c.isDigit = true := hdigits.2 c List.mem_cons_self
      refine formed_of_head rfl (not_blank (Or.inr hdigit)) ?_ (Or.inl rfl)
      rintro rfl
      cases hdigit
  | string => exact formed_of_head rfl rfl (by decide) (Or.inl rfl)
  | openString => exact formed_of_head rfl rfl (by decide) (Or.inr rfl)
  | symbol hsymbol =>
      obtain ⟨c, rest, rfl, hnotBlank, -, -, hslash⟩ := symbol_head hsymbol
      by_cases hc : c = '/'
      · obtain ⟨-, rfl⟩ := hslash hc
        constructor
        · exact iff_of_false (not_is_blank_text hnotBlank) nofun
        · exact iff_of_false not_is_line_comment_singleton nofun
        · exact iff_of_false not_is_block_comment_singleton nofun
      · exact formed_of_head rfl hnotBlank hc (Or.inl rfl)
  | illegal hnotBlank _ _ hoperator =>
      refine formed_of_head rfl hnotBlank ?_ (Or.inr rfl)
      rintro rfl
      cases hoperator

/-- A token spans no newline. -/
theorem Segment.Longest.no_newline {segment : Segment} {after : List Char}
    (h : segment.Longest after) (hrole : segment.role = .token) : '\n' ∉ segment.text := by
  intro hmem
  cases h with
  | word hletters =>
      obtain ⟨c, rest, rfl, hstarts, hrest⟩ := hletters
      rcases List.mem_cons.mp hmem with rfl | hmem
      · cases hstarts
      · cases hrest _ hmem
  | number hdigits => cases hdigits.2 _ hmem
  | @string body hbody =>
      have hinside : '\n' ∈ body := by simpa [Segment.text] using hmem
      exact hbody.2 hinside
  | symbol hsymbol => cases symbol_no_blank hsymbol _ hmem
  | _ => cases hrole

end Decaf
