import Decaf.Grammar.Sentence

/-!
# Induction on phrases

A derivation replaces the first phrase first, while a property of phrases is best proved production
by production, from the properties of the phrases in it. `Parts` cuts the kinds of a sequence into
what its symbols stand for, and `Derives.phrase_induction` is the induction: a property of
categories that every production hands on holds of all phrases.
-/

namespace Decaf

variable {stands : Category → List TokenKind → Prop}

/-- The kinds are cut, symbol by symbol, into the tokens of the sequence and, for each of its
phrases, some kinds that stand for it. -/
inductive Parts (stands : Category → List TokenKind → Prop) :
    List Symbol → List TokenKind → Prop where
  | done : Parts stands [] []
  | token {kind : TokenKind} {rest : List Symbol} {kinds : List TokenKind} :
      Parts stands rest kinds → Parts stands (.token kind :: rest) (kind :: kinds)
  | phrase {category : Category} {rest : List Symbol} {left right : List TokenKind} :
      stands category left → Parts stands rest right →
        Parts stands (.phrase category :: rest) (left ++ right)

/-- No symbols are cut into nothing. -/
theorem Parts.of_nil {kinds : List TokenKind} (h : Parts stands [] kinds) : kinds = [] := by
  cases h
  rfl

/-- A token comes first among the kinds. -/
theorem Parts.of_token {kind : TokenKind} {rest : List Symbol} {kinds : List TokenKind}
    (h : Parts stands (.token kind :: rest) kinds) :
    ∃ tail, kinds = kind :: tail ∧ Parts stands rest tail := by
  cases h with
  | token hrest => exact ⟨_, rfl, hrest⟩

/-- What stands for a phrase comes first among the kinds. -/
theorem Parts.of_phrase {category : Category} {rest : List Symbol} {kinds : List TokenKind}
    (h : Parts stands (.phrase category :: rest) kinds) :
    ∃ left, stands category left ∧ ∃ right, kinds = left ++ right ∧ Parts stands rest right := by
  cases h with
  | phrase hstands hrest => exact ⟨_, hstands, _, rfl, hrest⟩

/-- What stands for the last phrase is all that is left. -/
theorem Parts.of_last {category : Category} {kinds : List TokenKind}
    (h : Parts stands [.phrase category] kinds) : stands category kinds := by
  obtain ⟨left, hleft, right, rfl, hrest⟩ := h.of_phrase
  rwa [hrest.of_nil, List.append_nil]

/-- Between two tokens stands one phrase, and behind them another. -/
theorem Parts.of_enclosed {opening closing : TokenKind} {inner outer : Category}
    {kinds : List TokenKind}
    (h : Parts stands [.token opening, .phrase inner, .token closing, .phrase outer] kinds) :
    ∃ inside, stands inner inside ∧ ∃ behind, stands outer behind ∧
      kinds = opening :: (inside ++ [closing]) ++ behind := by
  obtain ⟨_, rfl, hinside⟩ := h.of_token
  obtain ⟨inside, hinner, _, rfl, hclosing⟩ := hinside.of_phrase
  obtain ⟨behind, rfl, hbehind⟩ := hclosing.of_token
  exact ⟨inside, hinner, behind, hbehind.of_last, by simp⟩

/-- The parts of two sequences in a row are those of the first and those of the second. -/
theorem Parts.split {first second : List Symbol} {kinds : List TokenKind}
    (h : Parts stands (first ++ second) kinds) :
    ∃ left right, kinds = left ++ right ∧ Parts stands first left ∧ Parts stands second right := by
  induction first generalizing kinds with
  | nil => exact ⟨[], kinds, rfl, .done, h⟩
  | cons symbol first ih =>
      cases symbol with
      | token kind =>
          obtain ⟨_, rfl, hrest⟩ := h.of_token
          obtain ⟨left, right, rfl, hleft, hright⟩ := ih hrest
          exact ⟨_, right, rfl, .token hleft, hright⟩
      | phrase category =>
          obtain ⟨inner, hinner, _, rfl, hrest⟩ := h.of_phrase
          obtain ⟨left, right, rfl, hleft, hright⟩ := ih hrest
          exact ⟨_, right, (List.append_assoc _ _ _).symm, .phrase hinner hleft, hright⟩

/-- What derives from a sequence is cut into its parts, if every production hands the property of
its phrases on. -/
theorem Derives.parts
    (hproduction : ∀ category, ∀ symbols ∈ productions category, ∀ kinds,
      Parts stands symbols kinds → stands category kinds)
    {symbols : List Symbol} {kinds : List TokenKind} (h : Derives symbols kinds) :
    Parts stands symbols kinds := by
  induction h with
  | done => exact .done
  | token _ ih => exact .token ih
  | phrase hmem _ ih =>
      obtain ⟨left, right, rfl, hleft, hright⟩ := ih.split
      exact .phrase (hproduction _ _ hmem left hleft) hright

/-- A property that every production hands on holds of what derives from a phrase. -/
theorem Derives.phrase_induction
    (hproduction : ∀ category, ∀ symbols ∈ productions category, ∀ kinds,
      Parts stands symbols kinds → stands category kinds)
    {category : Category} {kinds : List TokenKind} (h : Derives [.phrase category] kinds) :
    stands category kinds :=
  (Derives.parts hproduction h).of_last

end Decaf
