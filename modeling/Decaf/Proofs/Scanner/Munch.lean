import Decaf.Proofs.Scanner.Faults

/-!
# Scanning is maximal munch

A scan tries the forms of segments in a fixed order and never compares lengths. Still its units are
the one division of the source into longest segments (`is_division_iff`). `Token.Ends` spells out
what this means for a token in front of what follows it, `Cause.Justified` does so for the text of
a diagnostic, and `is_line_comment_of_prefix` and `is_block_comment_of_prefix` for comments.
`tokenize_longest` is all of it together.
-/

namespace Decaf

/-- A division of a text into units. Each of them is some segment that goes as far as its form
allows in front of the units behind it. -/
def IsDivision (text : List Char) (units : List (List Char)) : Prop :=
  units.flatten = text ∧ ∀ before unit after, units = before ++ unit :: after →
    ∃ segment : Segment, segment.text = unit ∧ segment.Longest after.flatten

/-- How far a token goes in front of what follows it. -/
structure Token.Ends (token : Token) (after : List Char) : Prop where
  word : token.kind ∈ wordKinds → ∀ c ∈ after.head?, continuesWord c = false
  number : token.kind = .intLiteral → ∀ c ∈ after.head?, c.isDigit = false
  operator : ∀ c ∈ after.head?, operatorKind? (token.lexeme.toList ++ [c]) = none
  slash : token.kind = .slash → ∀ c ∈ after.head?, c ≠ '/' ∧ c ≠ '*'
  string : token.kind = .stringLiteral → ∃ body, IsQuoted token.lexeme.toList body

/-- An operator starts with no character of a word and with no quote. -/
theorem operator_kind_head {c : Char} {rest : List Char} {kind : TokenKind}
    (h : operatorKind? (c :: rest) = some kind) : continuesWord c = false ∧ c ≠ '"' := by
  obtain ⟨_, _, heq, -, hword, hquote, -⟩ := symbol_head (symbol_of_operator h)
  obtain ⟨rfl, rfl⟩ := List.cons.inj heq
  exact ⟨hword, hquote⟩

/-- No text that starts like a word, a number or a string is an operator. -/
theorem operator_kind_eq_none {c : Char} (rest : List Char)
    (h : continuesWord c = true ∨ c = '"') : operatorKind? (c :: rest) = none := by
  refine Option.eq_none_iff_forall_ne_some.mpr fun kind hkind ↦ ?_
  obtain ⟨hword, hquote⟩ := operator_kind_head hkind
  rcases h with hc | hc
  · rw [hword] at hc
    cases hc
  · exact hquote hc

section

variable {segment : Segment} {after : List Char}

/-- No character lengthens the text of a token to an operator. -/
theorem not_operator_of_longest {kind : TokenKind} {value : TokenValue} (h : segment.Longest after)
    (hmeaning : segment.meaning? = some (kind, value)) :
    ∀ c ∈ after.head?, operatorKind? (segment.text ++ [c]) = none := by
  intro c hc
  cases h with
  | word hletters =>
      obtain ⟨d, rest, rfl, hstarts, -⟩ := hletters
      exact operator_kind_eq_none _ (Or.inl (by rw [continues_word_eq, hstarts, Bool.true_or]))
  | number hdigits =>
      obtain ⟨d, rest, rfl⟩ := List.exists_cons_of_ne_nil hdigits.1
      have hd : d.isDigit = true := hdigits.2 d List.mem_cons_self
      exact operator_kind_eq_none _ (Or.inl (by rw [continues_word_eq, hd, Bool.or_true]))
  | string => exact operator_kind_eq_none _ (Or.inr rfl)
  | symbol _ hafter => exact hafter c hc
  | _ => cases hmeaning

/-- A token goes as far as its form allows. -/
theorem ends_of_longest {token : Token} (h : segment.Longest after)
    (hmeaning : segment.meaning? = some (token.kind, token.value))
    (htext : token.lexeme.toList = segment.text) : token.Ends after where
  word hkind := by
    have hword := is_word_of_kind h hmeaning hkind
    rw [eq_of_same_text h hmeaning (.word hword nofun) rfl] at h
    cases h with
    | word _ hafter => exact hafter
  number hkind := by
    rw [hkind] at hmeaning
    have hnumber := is_number_of_kind h hmeaning
    rw [eq_of_same_text h hmeaning (.number hnumber nofun) rfl] at h
    cases h with
    | number _ hafter => exact hafter
  operator := by
    rw [htext]
    exact not_operator_of_longest h hmeaning
  slash hkind := by
    rw [hkind] at hmeaning
    have hsymbol := (symbol_of_kind h hmeaning (by decide) (by decide) (by decide)).1
    rw [eq_of_same_text h hmeaning (.symbol hsymbol nofun fun _ ↦ nofun) rfl] at h
    cases h with
    | symbol _ _ hslash => exact hslash rfl
  string hkind := by
    rw [hkind] at hmeaning
    rw [htext]
    exact is_quoted_of_kind h hmeaning

/-- What starts with two slashes is a comment up to the end of the line. -/
theorem is_line_comment_of_prefix (h : segment.Longest after)
    (hstarts : ['/', '/'] <+: segment.text) : IsLineComment segment.text after := by
  -- Cutting computes on the two slashes, which saves going through all other forms.
  obtain ⟨tail, htext⟩ := hstarts
  obtain ⟨c, rest, heq, hcut⟩ := cut_of_longest h
  rw [← htext] at heq
  obtain ⟨rfl, rfl⟩ := List.cons.inj heq
  obtain rfl : Segment.lineComment _ = segment := congrArg Prod.fst hcut
  cases h with
  | lineComment hbody hafter => exact ⟨_, rfl, hbody, hafter.cases⟩

/-- What starts with a slash and a star is a comment up to the first place where it can end, or up
to the end of the input if there is none. -/
theorem is_block_comment_of_prefix (h : segment.Longest after)
    (hstarts : ['/', '*'] <+: segment.text) :
    IsBlockComment segment.text ∨ (¬ ['*', '/'] <:+: segment.text.drop 2 ∧ after = []) := by
  obtain ⟨tail, htext⟩ := hstarts
  obtain ⟨c, rest, heq, hcut⟩ := cut_of_longest h
  rw [← htext] at heq
  obtain ⟨rfl, rfl⟩ := List.cons.inj heq
  have hslash : cutSlash ('*' :: (tail ++ after)) = (segment, after) := hcut
  rw [cutSlash] at hslash
  split at hslash
  · obtain ⟨rfl, -⟩ := Prod.mk.inj hslash
    cases h with
    | blockComment hbody => exact Or.inl ⟨_, rfl, hbody⟩
  · obtain ⟨rfl, -⟩ := Prod.mk.inj hslash
    cases h with
    | openComment hbody hafter => exact Or.inr ⟨hbody, hafter⟩

end

/-- The units of a source are its one division. -/
theorem is_division_iff {source : String} {units : List (List Char)} :
    IsDivision source.toList units ↔ units = unitsOf source := by
  constructor
  · rintro ⟨hflatten, hunits⟩
    rw [unitsOf, ← hflatten, units_eq_of_longest hunits]
  · rintro rfl
    refine ⟨units_of_flatten source, fun before unit after h ↦ ?_⟩
    obtain ⟨first, segment, rest, hsplit, rfl, rfl, rfl⟩ := units_of_split.mp h
    rw [← List.flatMap_def]
    exact ⟨segment, rfl, segments_longest hsplit⟩

/-- Pairs of characters are read before single ones, from the left. -/
example : unitsOf "a<=>//b" = [['a'], ['<', '='], ['>'], ['/', '/', 'b']] := by decide +kernel

/-- A token covers a unit of the source, and goes as far as its form allows. -/
theorem token_ends {source file : String} {token : Token}
    (h : token ∈ (tokenize source file).tokens) :
    ∃ before after, unitsOf source = before ++ token.lexeme.toList :: after ∧
      token.span.Covers before.flatten token.lexeme.toList ∧ token.Ends after.flatten := by
  obtain ⟨before, segment, after, hsplit, hlongest, hmeaning, hlexeme, hspan⟩ := token_found h
  have htext : token.lexeme.toList = segment.text := by rw [hlexeme, String.toList_ofList]
  refine ⟨_, _, units_of_split.mpr ⟨before, segment, after, hsplit, rfl, htext, rfl⟩, ?_, ?_⟩
  · rw [hspan, htext, ← List.flatMap_def]
    exact placed_covers
  · rw [← List.flatMap_def]
    exact ends_of_longest hlongest hmeaning htext

/-- An illegal character that is half of an operator does not stand in front of the other half. -/
theorem not_doubled {c : Char} {text after : List Char} {cause : Cause}
    (h : cause.Justified text after) (hcause : cause = .illegalCharacter c)
    (hc : c ∈ ['&', '|']) : after.head? ≠ some c := by
  intro hhead
  obtain ⟨rest, rfl⟩ := List.head?_eq_some_iff.mp hhead
  cases h with
  | illegalCharacter _ _ _ _ _ hoperator =>
      cases hcause
      have hpair : ∃ kind, operatorKind? [c, c] = some kind := by
        rcases List.mem_pair.mp hc with rfl | rfl
        · exact ⟨.and, rfl⟩
        · exact ⟨.or, rfl⟩
      obtain ⟨kind, hkind⟩ := hpair
      exact hoperator _ kind hkind ⟨rest, rfl⟩
  | _ => cases hcause

/-- The units of a scan are the one division of its source into segments that go as far as their
forms allow. No word or number goes on behind its token, no character behind a token makes it an
operator or the start of a comment, strings end at the first quote, and what is illegal or unclosed
has no other reading where it stands. Comments end at the first place where they can. -/
theorem tokenize_longest (source file : String) :
    (∀ units, IsDivision source.toList units ↔ units = unitsOf source) ∧
      (∀ token ∈ (tokenize source file).tokens, ∃ before after,
        unitsOf source = before ++ token.lexeme.toList :: after ∧
          token.span.Covers before.flatten token.lexeme.toList ∧ token.Ends after.flatten) ∧
      (∀ diagnostic ∈ (tokenize source file).diagnostics, ∃ before text after,
        unitsOf source = before ++ text :: after ∧ diagnostic.span.Covers before.flatten text ∧
          diagnostic.cause.Justified text after.flatten ∧
          ∀ c ∈ ['&', '|'], diagnostic.cause = .illegalCharacter c →
            after.flatten.head? ≠ some c) ∧
      ∀ before text after, unitsOf source = before ++ text :: after →
        (∃! segment : Segment, segment.text = text ∧ segment.Longest after.flatten) ∧
          (['/', '/'] <+: text → IsLineComment text after.flatten) ∧
          (['/', '*'] <+: text →
            IsBlockComment text ∨ (¬ ['*', '/'] <:+: text.drop 2 ∧ after.flatten = [])) := by
  refine ⟨fun _ ↦ is_division_iff, fun _ ↦ token_ends, fun diagnostic hdiagnostic ↦ ?_,
    fun before text after hunits ↦ ?_⟩
  · obtain ⟨before, text, after, hunits, hcovers, hjustified⟩ := diagnostic_justified hdiagnostic
    exact ⟨before, text, after, hunits, hcovers, hjustified,
      fun c hc hcause ↦ not_doubled hjustified hcause hc⟩
  · obtain ⟨segment, rfl, hlongest⟩ := (is_division_iff.mpr rfl).2 before text after hunits
    refine ⟨⟨segment, ⟨rfl, hlongest⟩, ?_⟩, is_line_comment_of_prefix hlongest,
      is_block_comment_of_prefix hlongest⟩
    rintro other ⟨htext, hother⟩
    exact hother.unique hlongest htext

end Decaf
