import Decaf.Token.Spelling

/-!
# Symbols are read as long as they can be

`operatorKind?` is the table of operators as a function of whole spellings. Reading an operator
finds the longest spelling at the head of a text: one that no further character of the text
lengthens to a spelling (`match_operator_eq_some`), and it finds none only where no spelling heads
the text (`match_operator_eq_none`, `not_prefix_of_match_operator`). The symbols of kinds are exactly
the spellings of operators and punctuation (`symbol_eq_some`).
-/

namespace Decaf

/-- The kind of an operator, given how it is spelled. -/
def operatorKind? : List Char → Option TokenKind
  | [c] => singleOperator? c
  | [c, d] => pairOperator? c d
  | _ => none

/-- Operators have one character or two. -/
theorem operator_kind_cases {spelling : List Char} {kind : TokenKind}
    (h : operatorKind? spelling = some kind) :
    (∃ c, spelling = [c] ∧ singleOperator? c = some kind) ∨
      ∃ c d, spelling = [c, d] ∧ pairOperator? c d = some kind := by
  match spelling with
  | [] => cases h
  | [c] => exact Or.inl ⟨c, rfl, h⟩
  | [c, d] => exact Or.inr ⟨c, d, rfl, h⟩
  | _ :: _ :: _ :: _ => cases h

/-- Each spelling of an operator is the symbol of its kind. -/
theorem symbol_of_operator {spelling : List Char} {kind : TokenKind}
    (h : operatorKind? spelling = some kind) : kind.symbol? = some (String.ofList spelling) := by
  rcases operator_kind_cases h with ⟨c, rfl, hc⟩ | ⟨c, d, rfl, hcd⟩
  · exact symbol_of_single_operator hc
  · exact symbol_of_pair_operator hcd

/-- The symbol of a kind is the spelling of an operator, or a punctuation character. -/
theorem symbol_spells {kind : TokenKind} {symbol : String} (h : kind.symbol? = some symbol) :
    operatorKind? symbol.toList = some kind ∨ symbol.toList.map punctuationKind? = [some kind] := by
  have hall : ∀ kind ∈ TokenKind.all, ∀ symbol ∈ kind.symbol?,
      operatorKind? symbol.toList = some kind ∨
        symbol.toList.map punctuationKind? = [some kind] := by
    decide
  exact hall kind kind.mem_all symbol h

/-- The symbols of kinds are the spellings of operators and of punctuation. -/
theorem symbol_eq_some {kind : TokenKind} {spelling : List Char} :
    kind.symbol? = some (String.ofList spelling) ↔
      operatorKind? spelling = some kind ∨
        ∃ c, spelling = [c] ∧ punctuationKind? c = some kind := by
  constructor
  · intro h
    have hspells := symbol_spells h
    rw [String.toList_ofList] at hspells
    exact hspells.imp_right List.map_eq_singleton_iff.mp
  · rintro (h | ⟨c, rfl, hc⟩)
    · exact symbol_of_operator h
    · exact symbol_of_punctuation hc

/-- No punctuation character is an operator. -/
theorem operator_kind_of_punctuation {c : Char} {kind : TokenKind}
    (h : punctuationKind? c = some kind) : operatorKind? [c] = none := by
  unfold punctuationKind? at h
  split at h
  all_goals first | rfl | cases h

/-- Reading an operator finds one at the head of a text that no further character lengthens. -/
theorem match_operator_eq_some {text spelling : List Char} {kind : TokenKind} :
    matchOperator? text = some (kind, spelling) ↔
      operatorKind? spelling = some kind ∧ ∃ after, text = spelling ++ after ∧
        ∀ c ∈ after.head?, operatorKind? (spelling ++ [c]) = none := by
  constructor
  · intro h
    match text with
    | [] => cases h
    | [c] =>
        obtain ⟨found, hc, heq⟩ := Option.map_eq_some_iff.mp h
        obtain ⟨rfl, rfl⟩ := Prod.mk.inj heq
        exact ⟨hc, [], rfl, nofun⟩
    | c :: d :: rest =>
        cases hpair : pairOperator? c d with
        | some found =>
            simp only [matchOperator?, hpair, Option.some.injEq, Prod.mk.injEq] at h
            obtain ⟨rfl, rfl⟩ := h
            exact ⟨hpair, rest, rfl, fun _ _ ↦ rfl⟩
        | none =>
            -- One character is read only after two have been tried, so no pair starts here.
            simp only [matchOperator?, hpair, Option.map_eq_some_iff, Prod.mk.injEq] at h
            obtain ⟨found, hc, rfl, rfl⟩ := h
            refine ⟨hc, d :: rest, rfl, fun e he ↦ ?_⟩
            cases he
            exact hpair
  · rintro ⟨h, after, rfl, hafter⟩
    rcases operator_kind_cases h with ⟨c, rfl, hc⟩ | ⟨c, d, rfl, hcd⟩
    · cases after with
      | nil => simp [matchOperator?, hc]
      | cons d after =>
          have hpair : pairOperator? c d = none := hafter d rfl
          simp [matchOperator?, hpair, hc]
    · simp [matchOperator?, hcd]

/-- Reading an operator finds none where neither one character nor two spell one. -/
theorem match_operator_eq_none {c : Char} {after : List Char} :
    matchOperator? (c :: after) = none ↔
      operatorKind? [c] = none ∧ ∀ d ∈ after.head?, operatorKind? [c, d] = none := by
  cases after with
  | nil => simp [matchOperator?, operatorKind?]
  | cons d after => cases hpair : pairOperator? c d <;> simp [matchOperator?, operatorKind?, hpair]

/-- Where reading an operator finds none, no spelling heads the text. -/
theorem not_prefix_of_match_operator {text spelling : List Char} {kind : TokenKind}
    (h : matchOperator? text = none) (hkind : operatorKind? spelling = some kind) :
    ¬ spelling <+: text := by
  rintro ⟨after, rfl⟩
  rcases operator_kind_cases hkind with ⟨c, rfl, hc⟩ | ⟨c, d, rfl, hcd⟩
  · exact Option.some_ne_none kind (hkind.symm.trans (match_operator_eq_none.mp h).1)
  · exact Option.some_ne_none kind (hkind.symm.trans ((match_operator_eq_none.mp h).2 d rfl))

end Decaf
