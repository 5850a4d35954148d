import Decaf.Recognizer.Program

/-!
# What a step does

The five ways a step can go, each with the state it leaves. The token kinds ahead of a recognizer
are all that its moves depend on; `Recognizer.EndsInput` says that they end with the end of input,
as they do after `start`, so that a token of any other kind can be left behind.
-/

namespace Decaf

namespace Recognizer

/-- The kinds of the current token and those after it. -/
def ahead (recognizer : Recognizer) : List TokenKind :=
  (recognizer.current :: recognizer.after).map Token.kind

/-- The last token ends the input. -/
def EndsInput (recognizer : Recognizer) : Prop :=
  recognizer.ahead.getLast? = some .endOfInput

/-- The kinds ahead start with that of the current token. -/
theorem ahead_eq (recognizer : Recognizer) :
    recognizer.ahead = recognizer.kind :: recognizer.after.map Token.kind :=
  rfl

/-- There is always a current token. -/
theorem ahead_ne_nil (recognizer : Recognizer) : recognizer.ahead ≠ [] :=
  List.cons_ne_nil _ _

/-- Moving on keeps the tables. -/
@[simp] theorem tables_advance (recognizer : Recognizer) :
    recognizer.advance.tables = recognizer.tables := by
  unfold advance
  split <;> rfl

/-- In front of the end of input there is a next token. -/
theorem EndsInput.advance_cons {recognizer : Recognizer} (h : recognizer.EndsInput)
    (hkind : recognizer.kind ≠ .endOfInput) :
    ∃ next rest, recognizer.after = next :: rest ∧
      recognizer.advance =
        { recognizer with
          before := recognizer.current :: recognizer.before, current := next, after := rest } := by
  cases hafter : recognizer.after with
  | nil =>
      simp only [EndsInput, ahead, hafter, List.map_cons, List.map_nil, List.getLast?_singleton,
        Option.some.injEq] at h
      exact absurd h hkind
  | cons next rest => exact ⟨next, rest, rfl, by simp [advance, hafter]⟩

/-- Moving on from a token other than the end of input leaves its kind behind. -/
theorem EndsInput.ahead_advance {recognizer : Recognizer} (h : recognizer.EndsInput)
    (hkind : recognizer.kind ≠ .endOfInput) :
    recognizer.ahead = recognizer.kind :: recognizer.advance.ahead := by
  obtain ⟨next, rest, hafter, hadvance⟩ := h.advance_cons hkind
  rw [hadvance, ahead_eq, hafter]
  rfl

/-- Moving on from a token other than the end of input leaves one token less. -/
theorem EndsInput.after_advance {recognizer : Recognizer} (h : recognizer.EndsInput)
    (hkind : recognizer.kind ≠ .endOfInput) :
    recognizer.after.length = recognizer.advance.after.length + 1 := by
  obtain ⟨next, rest, hafter, hadvance⟩ := h.advance_cons hkind
  rw [hadvance, hafter]
  rfl

/-- Moving on from a token other than the end of input counts it. -/
theorem EndsInput.index_advance {recognizer : Recognizer} (h : recognizer.EndsInput)
    (hkind : recognizer.kind ≠ .endOfInput) :
    recognizer.advance.index = recognizer.index + 1 := by
  obtain ⟨next, rest, -, hadvance⟩ := h.advance_cons hkind
  rw [hadvance]
  rfl

/-- The input still ends behind the next token. -/
theorem EndsInput.advance {recognizer : Recognizer} (h : recognizer.EndsInput)
    (hkind : recognizer.kind ≠ .endOfInput) : recognizer.advance.EndsInput := by
  have hahead := h.ahead_advance hkind
  unfold EndsInput at h ⊢
  rw [hahead, List.getLast?_cons_of_ne_nil (by simp [ahead])] at h
  exact h

/-- The input still ends behind the first of the kinds ahead. -/
theorem EndsInput.behind {recognizer next : Recognizer} {seen : List TokenKind}
    (h : recognizer.EndsInput) (hahead : recognizer.ahead = seen ++ next.ahead) :
    next.EndsInput := by
  have hlast := List.getLast?_eq_some_getLast next.ahead_ne_nil
  rw [EndsInput, hahead, List.getLast?_append, hlast, Option.some_or] at h
  rw [EndsInput, hlast, h]

/-- A recognizer that starts has the end of input behind all tokens. -/
theorem ahead_start (tokens : List Token) (file : String) :
    (start tokens file).ahead = tokens.map Token.kind ++ [.endOfInput] := by
  cases tokens with
  | nil => rfl
  | cons first rest => simp [start, ahead, endToken]

/-- The four ways in which a step succeeds. -/
theorem step_ok {recognizer next : Recognizer} {goal : Goal} {rest agenda : List Goal}
    (h : recognizer.step goal rest = .ok (next, agenda)) :
    (recognizer.tables.move recognizer.kind goal = .take ∧ next = recognizer.advance ∧
        agenda = rest) ∨
      (∃ goals, recognizer.tables.move recognizer.kind goal = .expand goals ∧
        next = recognizer ∧ agenda = goals ++ rest) ∨
      (∃ goals, recognizer.tables.move recognizer.kind goal = .nest goals ∧
        recognizer.depth < nestingLimit ∧ next = recognizer.descend ∧
        agenda = goals ++ .surface :: rest) ∨
      (recognizer.tables.move recognizer.kind goal = .surface ∧ next = recognizer.ascend 1 ∧
        agenda = rest) := by
  unfold step at h
  split at h
  · next hmove =>
    obtain ⟨rfl, rfl⟩ := Prod.mk.inj (Except.ok.inj h)
    exact Or.inl ⟨hmove, rfl, rfl⟩
  · next goals hmove =>
    obtain ⟨rfl, rfl⟩ := Prod.mk.inj (Except.ok.inj h)
    exact Or.inr (Or.inl ⟨goals, hmove, rfl, rfl⟩)
  · next goals hmove =>
    split at h
    · next hdepth =>
      obtain ⟨rfl, rfl⟩ := Prod.mk.inj (Except.ok.inj h)
      exact Or.inr (Or.inr (Or.inl ⟨goals, hmove, hdepth, rfl, rfl⟩))
    · cases h
  · next hmove =>
    obtain ⟨rfl, rfl⟩ := Prod.mk.inj (Except.ok.inj h)
    exact Or.inr (Or.inr (Or.inr ⟨hmove, rfl, rfl⟩))
  · cases h

/-- The two ways in which a step fails: the goal refuses the token, or it would have to go deeper
than the limit. -/
theorem step_error {recognizer : Recognizer} {goal : Goal} {rest : List Goal} {error : Diagnostic}
    (h : recognizer.step goal rest = .error error) :
    (∃ reason, recognizer.tables.move recognizer.kind goal = .refuse reason ∧
        error = recognizer.unexpected reason) ∨
      (∃ goals, recognizer.tables.move recognizer.kind goal = .nest goals ∧
        nestingLimit ≤ recognizer.depth ∧
        error = recognizer.unexpected (some "nesting too deep")) := by
  unfold step at h
  split at h
  · cases h
  · cases h
  · next goals hmove =>
    split at h
    · cases h
    · next hdepth => exact Or.inr ⟨goals, hmove, Nat.le_of_not_lt hdepth, (Except.error.inj h).symm⟩
  · cases h
  · next reason hmove => exact Or.inl ⟨reason, hmove, (Except.error.inj h).symm⟩

end Recognizer

end Decaf
