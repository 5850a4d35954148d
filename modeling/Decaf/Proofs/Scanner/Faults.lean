import Decaf.Proofs.Scanner.Tokens
import Decaf.Proofs.Scanner.Units
import Mathlib.Data.List.Basic

/-!
# Diagnostics are exact

`Cause.Justified` gives the reason for each diagnostic of a scan: what its text looks like and what
follows it. Every diagnostic covers a unit of the source, and a unit has exactly the diagnostics
that it justifies (`diagnostic_justified`, `justified_iff`). An unclosed comment is the last unit of
a source (`last_of_open_comment`), so that nothing comes behind its diagnostic. And the numbers out
of range are diagnosed one by one, in the order of their tokens (`overflow_diagnostics`).
-/

namespace Decaf

/-- Why a diagnostic is given for a text in front of another. -/
inductive Cause.Justified (text after : List Char) : Cause → Prop where
  | illegalCharacter {c : Char} (htext : text = [c]) (hblank : isBlank c = false)
      (hword : continuesWord c = false) (hquote : c ≠ '"') (hpunctuation : punctuationKind? c = none)
      (hoperator : ∀ spelling kind, operatorKind? spelling = some kind →
        ¬ spelling <+: c :: after) :
      Justified text after (.illegalCharacter c)
  | unterminatedString {body : List Char} (htext : text = '"' :: body) (hbody : IsStringBody body)
      (hafter : EndsLine after) : Justified text after (.unterminatedString (String.ofList text))
  | unterminatedComment {body : List Char} (htext : text = '/' :: '*' :: body)
      (hbody : ¬ ['*', '/'] <:+: body) (hafter : after = []) :
      Justified text after .unterminatedComment
  | integerOverflow (hdigits : IsNumber text) (hafter : ∀ c ∈ after.head?, c.isDigit = false)
      (hvalue : 2 ^ 63 - 1 < Nat.ofDigitChars 10 text 0) :
      Justified text after (.integerOverflow (String.ofList text))

/-- A number too large for 64 bits with a sign. -/
def Token.IsOutOfRange (token : Token) : Prop :=
  token.kind = .intLiteral ∧ 2 ^ 63 - 1 < Nat.ofDigitChars 10 token.lexeme.toList 0

/-- Being out of range can be tested. -/
instance (token : Token) : Decidable token.IsOutOfRange :=
  inferInstanceAs (Decidable (_ ∧ _))

/-- The diagnostic about a number out of range. -/
def Token.overflow (token : Token) : Diagnostic :=
  ⟨.integerOverflow token.lexeme, token.span⟩

/-- Whether a diagnostic is about a number out of range can be tested. -/
instance (diagnostic : Diagnostic) : Decidable diagnostic.IsOverflow :=
  match h : diagnostic.cause with
  | .integerOverflow literal => .isTrue ⟨literal, h⟩
  | .illegalCharacter _ | .unterminatedString _ | .unterminatedComment | .unexpectedToken _ _
  | .unexpectedEndOfInput => .isFalse fun hoverflow ↦ by
    obtain ⟨literal, heq⟩ := hoverflow
    rw [h] at heq
    cases heq

section

variable {segment : Segment} {after : List Char} {cause : Cause}

/-- A segment that goes as far as its form allows is faulty for a reason. -/
theorem justified_of_longest (h : segment.Longest after) (hfault : segment.fault? = some cause) :
    cause.Justified segment.text after := by
  cases h with
  | openComment hbody hafter =>
      cases hfault
      exact .unterminatedComment rfl hbody hafter
  | openString hbody hafter =>
      cases hfault
      exact .unterminatedString rfl hbody hafter
  | illegal hblank hword hquote hoperator hpunctuation hafter =>
      cases hfault
      have hmatch := match_operator_eq_none.mpr ⟨hoperator, hafter⟩
      exact .illegalCharacter rfl hblank hword hquote hpunctuation fun spelling kind ↦
        not_prefix_of_match_operator hmatch
  | @number digits hdigits hafter =>
      rw [Segment.fault?] at hfault
      split at hfault
      · cases hfault
      · next hvalue =>
        cases hfault
        exact .integerOverflow hdigits hafter (Nat.lt_of_not_le hvalue)
  | _ => cases hfault

/-- A segment that gives the reason for a cause is faulty by it. -/
theorem fault_of_justified (h : segment.Longest after)
    (hjustified : cause.Justified segment.text after) : segment.fault? = some cause := by
  -- The reason describes a longest segment of the same text, and there is only one.
  cases hjustified with
  | @illegalCharacter c htext hblank hword hquote hpunctuation hoperator =>
      have hsingle : operatorKind? [c] = none :=
        Option.eq_none_iff_forall_ne_some.mpr fun kind hkind ↦
          hoperator _ kind hkind ⟨after, rfl⟩
      have hpair : ∀ d ∈ after.head?, operatorKind? [c, d] = none := by
        intro d hd
        obtain ⟨rest, rfl⟩ := List.head?_eq_some_iff.mp hd
        exact Option.eq_none_iff_forall_ne_some.mpr fun kind hkind ↦
          hoperator _ kind hkind ⟨rest, rfl⟩
      rw [h.unique (.illegal hblank hword hquote hsingle hpunctuation hpair) htext]
      rfl
  | unterminatedString htext hbody hafter =>
      rw [h.unique (.openString hbody hafter) htext]
      rfl
  | unterminatedComment htext hbody hafter =>
      rw [h.unique (.openComment hbody hafter) htext]
      rfl
  | integerOverflow hdigits hafter hvalue =>
      rw [h.unique (.number hdigits hafter) rfl]
      exact if_neg (Nat.not_le_of_lt hvalue)

/-- Only an unclosed comment is faulty as one. -/
theorem open_comment_of_fault (hfault : segment.fault? = some .unterminatedComment) :
    ∃ body, segment = .openComment body := by
  cases segment with
  | openComment body => exact ⟨body, rfl⟩
  | number digits =>
      rw [Segment.fault?] at hfault
      split at hfault <;> cases hfault
  | _ => cases hfault

end

section

variable {source file : String}

/-- A diagnostic covers a unit of the source, and is justified by it and by what follows. -/
theorem diagnostic_justified {diagnostic : Diagnostic}
    (h : diagnostic ∈ (tokenize source file).diagnostics) :
    ∃ before text after, unitsOf source = before ++ text :: after ∧
      diagnostic.span.Covers before.flatten text ∧
      diagnostic.cause.Justified text after.flatten := by
  obtain ⟨before, segment, after, hsplit, hheld⟩ := mem_diagnostics.mp h
  obtain ⟨cause, hcause, rfl⟩ := diagnostic_eq_some.mp hheld
  refine ⟨_, _, _, units_of_split.mpr ⟨before, segment, after, hsplit, rfl, rfl, rfl⟩, ?_, ?_⟩
  · rw [← List.flatMap_def]
    exact placed_covers
  · rw [← List.flatMap_def]
    exact justified_of_longest (segments_longest hsplit) hcause

/-- A unit has exactly the diagnostics that it justifies. -/
theorem justified_iff {before after : List (List Char)} {text : List Char} {cause : Cause}
    (hunits : unitsOf source = before ++ text :: after) :
    cause.Justified text after.flatten ↔
      ∃ diagnostic ∈ (tokenize source file).diagnostics,
        diagnostic.cause = cause ∧ diagnostic.span.Covers before.flatten text := by
  obtain ⟨first, segment, rest, hsplit, rfl, rfl, rfl⟩ := units_of_split.mp hunits
  rw [← List.flatMap_def, ← List.flatMap_def]
  have hlongest := segments_longest hsplit
  constructor
  · intro hjustified
    have hdiagnostic : Placed.diagnostic? file ⟨placeBehind first, segment⟩ = some _ :=
      diagnostic_eq_some.mpr ⟨cause, fault_of_justified hlongest hjustified, rfl⟩
    exact ⟨_, mem_diagnostics.mpr ⟨first, segment, rest, hsplit, hdiagnostic⟩, rfl, placed_covers⟩
  · rintro ⟨diagnostic, hdiagnostic, rfl, hcovers⟩
    have hheld := held_of_start (fun _ _ ↦ diagnostic_span) hsplit hdiagnostic hcovers.1
    obtain ⟨cause, hcause, rfl⟩ := diagnostic_eq_some.mp hheld
    exact justified_of_longest hlongest hcause

/-- Nothing follows an unclosed comment. -/
theorem last_of_open_comment {text body : List Char} {before after : List Segment}
    (h : segments text = before ++ .openComment body :: after) : after = [] := by
  cases after with
  | nil => rfl
  | cons segment after =>
      have hrest : segment.text ++ after.flatMap Segment.text = [] := by
        cases segments_longest h with
        | openComment _ hafter => exact hafter
      rw [← List.singleton_append, ← List.append_assoc] at h
      exact absurd (List.append_eq_nil_iff.mp hrest).1 (segments_text_ne_nil h)

/-- A segment of a text is its last one, or it stands before the last. -/
theorem last_or_before {text : List Char} {before first rest : List Segment}
    {segment last : Segment} (h : segments text = before ++ [last])
    (hsplit : segments text = first ++ segment :: rest) :
    (first = before ∧ segment = last) ∨ ∃ middle, before = first ++ segment :: middle := by
  rcases rest.eq_nil_or_concat with rfl | ⟨middle, other, rfl⟩
  · obtain ⟨hbefore, hlast⟩ := List.append_inj' (hsplit.symm.trans h) rfl
    exact Or.inl ⟨hbefore, (List.cons.inj hlast).1⟩
  · rw [List.concat_eq_append, ← List.cons_append, ← List.append_assoc] at hsplit
    exact Or.inr ⟨middle, (List.append_inj' (hsplit.symm.trans h) rfl).1.symm⟩

/-- What stands before another segment ends where that starts, or earlier. -/
theorem stop_le_start {before middle : List Segment} {segment other : Segment} :
    (Placed.span file ⟨placeBehind before, segment⟩).stop.offset ≤
      (Placed.span file ⟨placeBehind (before ++ segment :: middle), other⟩).start.offset := by
  have hstop : (Placed.span file ⟨placeBehind before, segment⟩).stop.offset = _ :=
    placed_covers.2
  have hstart : (Placed.span file ⟨placeBehind (before ++ segment :: middle), other⟩).start.offset =
      _ := placed_covers.1
  rw [hstop, hstart]
  simp only [List.flatMap_append, List.flatMap_cons, byte_length_append]
  omega

/-- A diagnostic covers some text. -/
theorem diagnostic_start_lt {diagnostic : Diagnostic}
    (h : diagnostic ∈ (tokenize source file).diagnostics) :
    diagnostic.span.start.offset < diagnostic.span.stop.offset := by
  obtain ⟨before, text, after, hunits, hcovers, -⟩ := diagnostic_justified h
  have hpos := byte_length_pos (@units_of_role source file _ _ _ hunits).1
  rw [hcovers.1, hcovers.2]
  omega

/-- Every token ends before an unclosed comment, and so does every other diagnostic. -/
theorem ends_before_open_comment {diagnostic : Diagnostic}
    (h : diagnostic ∈ (tokenize source file).diagnostics)
    (hcause : diagnostic.cause = .unterminatedComment) :
    (∀ token ∈ (tokenize source file).tokens,
        token.span.stop.offset ≤ diagnostic.span.start.offset) ∧
      ∀ other ∈ (tokenize source file).diagnostics,
        other = diagnostic ∨ other.span.stop.offset ≤ diagnostic.span.start.offset := by
  obtain ⟨before, segment, after, hsplit, hheld⟩ := mem_diagnostics.mp h
  obtain ⟨cause, hfault, rfl⟩ := diagnostic_eq_some.mp hheld
  cases hcause
  obtain ⟨body, rfl⟩ := open_comment_of_fault hfault
  obtain rfl := last_of_open_comment hsplit
  constructor
  · intro token htoken
    obtain ⟨first, other, rest, hother, hholds⟩ := mem_tokens.mp htoken
    rcases last_or_before hsplit hother with ⟨rfl, rfl⟩ | ⟨middle, rfl⟩
    · cases hholds
    · rw [token_span hholds]
      exact stop_le_start
  · intro diagnostic hdiagnostic
    obtain ⟨first, other, rest, hother, hholds⟩ := mem_diagnostics.mp hdiagnostic
    rcases last_or_before hsplit hother with ⟨rfl, rfl⟩ | ⟨middle, rfl⟩
    · exact Or.inl (Option.some.inj (hholds.symm.trans hheld))
    · rw [diagnostic_span hholds]
      exact Or.inr stop_le_start

/-- The diagnostic of an unclosed comment is the last one. -/
theorem last_diagnostic_of_open_comment {first rest : List Diagnostic} {diagnostic : Diagnostic}
    (h : (tokenize source file).diagnostics = first ++ diagnostic :: rest)
    (hcause : diagnostic.cause = .unterminatedComment) :
    rest = [] ∧ ∀ other ∈ first, other.cause ≠ .unterminatedComment := by
  have hmem : diagnostic ∈ (tokenize source file).diagnostics := by
    rw [h]
    exact List.mem_append_right first List.mem_cons_self
  have hpairwise := (@diagnostics_pairwise source file).imp offset_le_of_advance
  rw [h, List.pairwise_append, List.pairwise_cons] at hpairwise
  obtain ⟨-, ⟨hbehind, -⟩, hbefore⟩ := hpairwise
  have hpos := diagnostic_start_lt hmem
  constructor
  · refine List.eq_nil_iff_forall_not_mem.mpr fun other hother ↦ ?_
    have hotherMem : other ∈ (tokenize source file).diagnostics := by
      rw [h]
      exact List.mem_append_right first (List.mem_cons_of_mem _ hother)
    have hstart := hbehind other hother
    have hotherPos := diagnostic_start_lt hotherMem
    rcases (ends_before_open_comment hmem hcause).2 other hotherMem with rfl | hstop <;> omega
  · intro other hother hotherCause
    have hotherMem : other ∈ (tokenize source file).diagnostics := by
      rw [h]
      exact List.mem_append_left _ hother
    have hstop := hbefore other hother diagnostic List.mem_cons_self
    have hotherPos := diagnostic_start_lt hotherMem
    rcases (ends_before_open_comment hotherMem hotherCause).2 diagnostic hmem with rfl | hend <;>
      omega

/-- A token of digits is out of range where its value is. -/
theorem is_out_of_range_iff {digits : List Char} {value : TokenValue} {span : Span} :
    Token.IsOutOfRange ⟨.intLiteral, String.ofList digits, value, span⟩ ↔
      ¬ decimalValue digits ≤ largestInt := by
  rw [Token.IsOutOfRange, String.toList_ofList]
  exact ⟨fun h ↦ Nat.not_le_of_lt h.2, fun h ↦ ⟨rfl, Nat.lt_of_not_le h⟩⟩

/-- A segment holds the diagnostic of an overflow where it holds a token out of range, and there
only. -/
theorem overflow_of_longest {start : Position} {segment : Segment} {after : List Char}
    (h : segment.Longest after) :
    (Placed.diagnostic? file ⟨start, segment⟩).filter (fun diagnostic ↦ diagnostic.IsOverflow) =
      ((Placed.token? file ⟨start, segment⟩).filter (fun token ↦ token.IsOutOfRange)).map
        Token.overflow := by
  by_cases hnumber : ∃ digits, segment = .number digits
  · obtain ⟨digits, rfl⟩ := hnumber
    have hoverflow (span : Span) :
        Diagnostic.IsOverflow ⟨.integerOverflow (String.ofList digits), span⟩ := ⟨_, rfl⟩
    by_cases hvalue : decimalValue digits ≤ largestInt <;>
      simp [Placed.diagnostic?, Placed.token?, Segment.fault?, Segment.meaning?, Segment.text,
        Placed.span, Option.filter_some, hvalue, is_out_of_range_iff, hoverflow, Token.overflow]
  · have hfault : (Placed.diagnostic? file ⟨start, segment⟩).filter
        (fun diagnostic ↦ diagnostic.IsOverflow) = none := by
      refine Option.filter_eq_none_iff.mpr fun diagnostic hdiagnostic hoverflow ↦ hnumber ?_
      obtain ⟨cause, hcause, rfl⟩ := diagnostic_eq_some.mp hdiagnostic
      obtain ⟨literal, rfl⟩ := of_decide_eq_true hoverflow
      obtain ⟨digits, heq, -⟩ := number_of_overflow hcause
      exact ⟨digits, heq⟩
    have htoken : (Placed.token? file ⟨start, segment⟩).filter
        (fun token ↦ token.IsOutOfRange) = none := by
      refine Option.filter_eq_none_iff.mpr fun token htoken hrange ↦ hnumber ?_
      obtain ⟨⟨kind, value⟩, hmeaning, rfl⟩ := token_eq_some.mp htoken
      obtain ⟨rfl, -⟩ := of_decide_eq_true hrange
      have hdigits := is_number_of_kind h hmeaning
      exact ⟨segment.text, eq_of_same_text h hmeaning (.number hdigits (by simp)) rfl⟩
    rw [hfault, htoken, Option.map_none]

/-- The numbers out of range are diagnosed one by one, in the order of their tokens. -/
theorem overflow_diagnostics (source file : String) :
    (tokenize source file).diagnostics.filter (fun diagnostic ↦ diagnostic.IsOverflow) =
      ((tokenize source file).tokens.filter (fun token ↦ token.IsOutOfRange)).map
        Token.overflow := by
  show ((place .start (segments source.toList)).filterMap (Placed.diagnostic? file)).filter _ =
    (((place .start (segments source.toList)).filterMap (Placed.token? file)).filter _).map _
  rw [List.filter_filterMap, List.filter_filterMap, List.map_filterMap]
  refine List.filterMap_congr fun placed hplaced ↦ ?_
  obtain ⟨before, segment, after, hsplit, rfl⟩ := mem_place.mp hplaced
  exact overflow_of_longest (segments_longest hsplit)

/-- The diagnostics of a scan are exact. Each covers a unit of the source that gives reason for it,
and none is missing where there is reason. An unclosed comment is diagnosed at most once, behind all
other diagnostics and all tokens. The numbers out of range are diagnosed one by one, in the order of
their tokens. -/
theorem tokenize_diagnostics (source file : String) :
    (∀ diagnostic ∈ (tokenize source file).diagnostics, ∃ before text after,
        unitsOf source = before ++ text :: after ∧ diagnostic.span.Covers before.flatten text ∧
          diagnostic.cause.Justified text after.flatten) ∧
      (∀ before text after, unitsOf source = before ++ text :: after → ∀ cause,
        cause.Justified text after.flatten ↔ ∃ diagnostic ∈ (tokenize source file).diagnostics,
          diagnostic.cause = cause ∧ diagnostic.span.Covers before.flatten text) ∧
      (∀ first diagnostic rest,
        (tokenize source file).diagnostics = first ++ diagnostic :: rest →
        diagnostic.cause = .unterminatedComment →
          rest = [] ∧ (∀ other ∈ first, other.cause ≠ .unterminatedComment) ∧
            ∀ token ∈ (tokenize source file).tokens,
              token.span.stop.offset ≤ diagnostic.span.start.offset) ∧
      (tokenize source file).diagnostics.filter (fun diagnostic ↦ diagnostic.IsOverflow) =
        ((tokenize source file).tokens.filter (fun token ↦ token.IsOutOfRange)).map
          Token.overflow := by
  refine ⟨fun _ ↦ diagnostic_justified, fun _ _ _ hunits _ ↦ justified_iff hunits,
    fun first diagnostic rest h hcause ↦ ?_, overflow_diagnostics source file⟩
  have hmem : diagnostic ∈ (tokenize source file).diagnostics := by
    rw [h]
    exact List.mem_append_right first List.mem_cons_self
  obtain ⟨hrest, hfirst⟩ := last_diagnostic_of_open_comment h hcause
  exact ⟨hrest, hfirst, (ends_before_open_comment hmem hcause).1⟩

end

end Decaf
