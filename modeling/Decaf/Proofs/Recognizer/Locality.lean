import Decaf.Proofs.Recognizer.Acceptance
import Decaf.Proofs.Recognizer.Course

/-!
# Recognition is local

What a run does depends on nothing but the kinds of the tokens from where it starts up to where it
stops. `Passes` relates the two places, and `SameWay` says that another run passes the same kinds
and ends alike. A step goes the same way in front of the same kind (`step_local`), and so a run does
in front of the same kinds (`run_local`). The token at which a run stops counts among them, unless
the run is accepted and its last goal has taken the last token it passed: then the run has never
looked further. An agenda that can only end so `IsClosed`.
-/

namespace Decaf

/-! ## Goals that end with a token -/

/-- The goals whose last move takes a token. -/
def Goal.takesLast : Goal → Bool
  | .token _ _ | .declarationTail | .rule .declaration | .rule .block => true
  | _ => false

/-- Nothing is left to do, or the last goal will end by taking a token. -/
def IsClosed (agenda : List Goal) : Prop :=
  ∀ last ∈ agenda.getLast?, last.takesLast = true

/-- What stands behind other goals closes them too. -/
theorem IsClosed.append {agenda : List Goal} (h : IsClosed agenda) (hne : agenda ≠ [])
    (goals : List Goal) : IsClosed (goals ++ agenda) := by
  unfold IsClosed
  rwa [List.getLast?_append_of_ne_nil goals hne]

/-- A goal that ends with a token takes it, gives way to goals that end with one, or refuses. -/
theorem move_of_takes_last (tables : Tables) (kind : TokenKind) {goal : Goal}
    (h : goal.takesLast = true) :
    tables.move kind goal = .take ∨
      (∃ goals, tables.move kind goal = .expand goals ∧ goals ≠ [] ∧ IsClosed goals) ∨
        ∃ reason, tables.move kind goal = .refuse reason := by
  cases goal with
  | token expected reason =>
      simp only [Tables.move]
      split
      · exact Or.inl rfl
      · exact Or.inr (Or.inr ⟨_, rfl⟩)
  | declarationTail =>
      simp only [Tables.move]
      split <;>
        exact Or.inr (Or.inl ⟨_, rfl, by simp, by simp [IsClosed, Goal.takesLast, Goal.expect]⟩)
  | rule rule =>
      cases rule with
      | declaration =>
          simp only [Tables.move, Rule.move]
          split
          · exact Or.inr (Or.inl ⟨_, rfl, by simp, by simp [IsClosed, Goal.takesLast]⟩)
          · exact Or.inr (Or.inr ⟨_, rfl⟩)
      | block =>
          exact Or.inr (Or.inl ⟨_, rfl, by simp, by simp [IsClosed, Goal.takesLast, Goal.expect]⟩)
      | _ => cases h
  | _ => cases h

namespace Recognizer

variable {recognizer next other : Recognizer} {seen : List TokenKind} {goal : Goal}
  {rest agenda : List Goal}

/-! ## What a run passes -/

/-- A recognizer has got from one place to another past some kinds, none of them an end of input. -/
structure Passes (recognizer next : Recognizer) (seen : List TokenKind) : Prop where
  ahead : recognizer.ahead = seen ++ next.ahead
  index : next.index = recognizer.index + seen.length
  tables : next.tables = recognizer.tables
  no_end : .endOfInput ∉ seen

/-- A recognizer that stays passes nothing, though it may go deeper or come up. -/
theorem Passes.stay (recognizer : Recognizer) (depth : Nat) :
    Passes recognizer { recognizer with depth := depth } [] :=
  ⟨rfl, rfl, rfl, List.not_mem_nil⟩

/-- A recognizer that stays as it is passes nothing. -/
theorem Passes.refl (recognizer : Recognizer) : Passes recognizer recognizer [] :=
  Passes.stay recognizer recognizer.depth

/-- What is passed in two stretches is passed one after the other. -/
theorem Passes.trans {middle : Recognizer} {later : List TokenKind}
    (hfirst : Passes recognizer middle seen) (hsecond : Passes middle next later) :
    Passes recognizer next (seen ++ later) where
  ahead := by rw [hfirst.ahead, hsecond.ahead, List.append_assoc]
  index := by rw [hsecond.index, hfirst.index, List.length_append, Nat.add_assoc]
  tables := hsecond.tables.trans hfirst.tables
  no_end := by
    rw [List.mem_append, not_or]
    exact ⟨hfirst.no_end, hsecond.no_end⟩

/-- Taking a token passes its kind. -/
theorem Passes.take (hends : recognizer.EndsInput) (hkind : recognizer.kind ≠ .endOfInput) :
    Passes recognizer recognizer.advance [recognizer.kind] where
  ahead := hends.ahead_advance hkind
  index := hends.index_advance hkind
  tables := tables_advance recognizer
  no_end := by simpa using hkind.symm

/-- The input still ends behind what has been passed. -/
theorem Passes.ends_input (h : Passes recognizer next seen) (hends : recognizer.EndsInput) :
    next.EndsInput :=
  hends.behind h.ahead

/-- The kinds passed stand ahead with the one that stopped the run. -/
theorem Passes.starts (h : Passes recognizer next seen) :
    seen ++ [next.kind] <+: recognizer.ahead := by
  rw [h.ahead, ahead_eq]
  exact (List.prefix_append_right_inj seen).mpr (List.prefix_append [next.kind] _)

/-- In front of the same kinds stands the same kind. -/
theorem kind_eq_of_shared {shared : List TokenKind} (hne : shared ≠ [])
    (h : shared <+: recognizer.ahead) (hother : shared <+: other.ahead) :
    other.kind = recognizer.kind := by
  obtain ⟨kind, shared, rfl⟩ := List.exists_cons_of_ne_nil hne
  rw [ahead_eq, List.cons_prefix_cons] at h hother
  rw [← h.1, ← hother.1]

/-! ## Runs that go the same way -/

/-- A recognizer that stands elsewhere, with the same tables and as deep, before tokens that end. -/
structure Beside (recognizer other : Recognizer) : Prop where
  tables : other.tables = recognizer.tables
  depth : other.depth = recognizer.depth
  ends_input : other.EndsInput

/-- Two runs have ended alike: with the same result, or with errors that give the same reason, each
about its own token. -/
def Alike {α : Type} (first second : Recognizer × Verdict α) : Prop :=
  match first.2, second.2 with
  | .accepted result, .accepted other => other = result
  | .rejected error, .rejected other =>
    ∃ reason, error = first.1.unexpected reason ∧ other = second.1.unexpected reason
  | .stalled, .stalled => True
  | _, _ => False

/-- A run that has ended like an accepted one is accepted, with the same result. -/
theorem Alike.accepted {α : Type} {first second : Recognizer × Verdict α} {result : α}
    (h : Alike first second) (hfirst : first.2 = .accepted result) :
    second.2 = .accepted result := by
  rw [Alike, hfirst] at h
  cases hsecond : second.2 with
  | accepted other =>
      rw [hsecond] at h
      exact congrArg Verdict.accepted h
  | rejected error => simp [hsecond] at h
  | stalled => simp [hsecond] at h

/-- A run that has ended like a rejected one is rejected, for the same reason. -/
theorem Alike.rejected {α : Type} {first second : Recognizer × Verdict α} {error : Diagnostic}
    (h : Alike first second) (hfirst : first.2 = .rejected error) :
    ∃ reason, error = first.1.unexpected reason ∧
      second.2 = .rejected (second.1.unexpected reason) := by
  rw [Alike, hfirst] at h
  cases hsecond : second.2 with
  | accepted result => simp [hsecond] at h
  | rejected other =>
      rw [hsecond] at h
      obtain ⟨reason, herror, hother⟩ := h
      exact ⟨reason, herror, congrArg Verdict.rejected hother⟩
  | stalled => simp [hsecond] at h

/-- A run that has ended like one that did not stall has not stalled. -/
theorem Alike.ne_stalled {α : Type} {first second : Recognizer × Verdict α}
    (h : Alike first second) (hfirst : first.2 ≠ .stalled) : second.2 ≠ .stalled := by
  cases hverdict : first.2 with
  | accepted result => simp [h.accepted hverdict]
  | rejected error =>
      obtain ⟨reason, -, hsecond⟩ := h.rejected hverdict
      simp [hsecond]
  | stalled => exact absurd hverdict hfirst

/-- From another place a run passes the same kinds, stays as deep and ends alike. -/
structure SameWay {α : Type} (seen : List TokenKind) (outcome : Recognizer × Verdict α)
    (other : Recognizer) (otherOutcome : Recognizer × Verdict α) : Prop where
  passes : Passes other otherOutcome.1 seen
  depth : otherOutcome.1.depth = outcome.1.depth
  alike : Alike outcome otherOutcome

/-- What has to stand in front of another recognizer for its run to go the same way: the kinds
passed with the one that stopped the run, or the kinds passed alone if the run has looked no
further. -/
def Suffices (agenda : List Goal) (outcome : Recognizer × Verdict Unit) (seen : List TokenKind)
    (ahead : List TokenKind) : Prop :=
  seen ++ [outcome.1.kind] <+: ahead ∨
    (IsClosed agenda ∧ outcome.2 = .accepted () ∧ seen <+: ahead)

/-- A step towards the end of a closed agenda keeps it closed, and only a token ends it. -/
theorem step_closed (hclosed : IsClosed (goal :: rest))
    (h : recognizer.step goal rest = .ok (next, agenda)) :
    IsClosed agenda ∧
      (agenda = [] → recognizer.tables.move recognizer.kind goal = .take) := by
  by_cases hrest : rest = []
  · subst hrest
    have hlast : goal.takesLast = true := hclosed goal rfl
    rcases move_of_takes_last recognizer.tables recognizer.kind hlast with
      hmove | ⟨goals, hmove, hne, hgoals⟩ | ⟨reason, hmove⟩ <;> simp only [step, hmove] at h
    · obtain ⟨-, rfl⟩ := Prod.mk.inj (Except.ok.inj h)
      exact ⟨by simp [IsClosed], fun _ ↦ hmove⟩
    · obtain ⟨-, rfl⟩ := Prod.mk.inj (Except.ok.inj h)
      rw [List.append_nil]
      exact ⟨hgoals, fun hnil ↦ absurd hnil hne⟩
    · cases h
  · have htail : IsClosed rest := by
      unfold IsClosed at hclosed ⊢
      rwa [List.getLast?_cons_of_ne_nil hrest] at hclosed
    rcases step_ok h with ⟨-, -, rfl⟩ | ⟨goals, -, -, rfl⟩ | ⟨goals, -, -, -, rfl⟩ | ⟨-, -, rfl⟩
    · exact ⟨htail, fun hnil ↦ absurd hnil hrest⟩
    · exact ⟨htail.append hrest goals, fun hnil ↦ absurd (List.append_eq_nil_iff.mp hnil).2 hrest⟩
    · rw [← List.singleton_append, ← List.append_assoc]
      exact ⟨htail.append hrest _, fun hnil ↦ absurd (List.append_eq_nil_iff.mp hnil).2 hrest⟩
    · exact ⟨htail, fun hnil ↦ absurd hnil hrest⟩

/-- A step passes the token that it takes, and goes the same way in front of the same kind. -/
theorem step_local (htables : recognizer.tables = .standard) (hends : recognizer.EndsInput)
    (hguarded : Guarded recognizer.kind (goal :: rest))
    (h : recognizer.step goal rest = .ok (next, agenda)) :
    ∃ seen, Passes recognizer next seen ∧
      (recognizer.tables.move recognizer.kind goal = .take → seen ≠ []) ∧
      ∀ other, Beside recognizer other → other.kind = recognizer.kind →
        ∃ otherNext, other.step goal rest = .ok (otherNext, agenda) ∧
          Passes other otherNext seen ∧ Beside next otherNext := by
  have hlowers := move_lowers hguarded.1
  rw [← htables] at hlowers
  rcases step_ok h with ⟨hmove, rfl, rfl⟩ | ⟨goals, hmove, rfl, rfl⟩ |
    ⟨goals, hmove, hdepth, rfl, rfl⟩ | ⟨hmove, rfl, rfl⟩
  · rw [hmove] at hlowers
    refine ⟨_, Passes.take hends hlowers, fun _ ↦ List.cons_ne_nil _ _,
      fun other hbeside hkind ↦ ⟨other.advance, ?_, ?_, ?_, ?_, ?_⟩⟩
    · simp only [step, hbeside.tables, hkind, hmove]
    · rw [← hkind] at hlowers ⊢
      exact Passes.take hbeside.ends_input hlowers
    · simpa using hbeside.tables
    · simpa using hbeside.depth
    · exact hbeside.ends_input.advance (hkind ▸ hlowers)
  · refine ⟨[], Passes.refl _, by simp [hmove], fun other hbeside hkind ↦
      ⟨other, ?_, Passes.refl other, hbeside⟩⟩
    simp only [step, hbeside.tables, hkind, hmove]
  · refine ⟨[], Passes.stay recognizer _, by simp [hmove], fun other hbeside hkind ↦
      ⟨other.descend, ?_, Passes.stay other _, hbeside.tables,
        congrArg (· + 1) hbeside.depth, hbeside.ends_input⟩⟩
    simp only [step, hbeside.tables, hkind, hmove, hbeside.depth, if_pos hdepth]
  · refine ⟨[], Passes.stay recognizer _, by simp [hmove], fun other hbeside hkind ↦
      ⟨other.ascend 1, ?_, Passes.stay other _, hbeside.tables,
        congrArg (· - 1) hbeside.depth, hbeside.ends_input⟩⟩
    simp only [step, hbeside.tables, hkind, hmove]

/-- A step that fails, fails for the same reason in front of the same kind. -/
theorem step_error_local {error : Diagnostic} (h : recognizer.step goal rest = .error error)
    (hbeside : Beside recognizer other) (hkind : other.kind = recognizer.kind) :
    ∃ reason, error = recognizer.unexpected reason ∧
      other.step goal rest = .error (other.unexpected reason) := by
  rcases step_error h with ⟨reason, hmove, rfl⟩ | ⟨goals, hmove, hdepth, rfl⟩
  · refine ⟨reason, rfl, ?_⟩
    simp only [step, hbeside.tables, hkind, hmove]
  · refine ⟨_, rfl, ?_⟩
    simp only [step, hbeside.tables, hkind, hmove, hbeside.depth, if_neg (Nat.not_lt.mpr hdepth)]

/-- In front of what suffices stands the kind that the run starts with, unless there is nothing to
do. -/
theorem Suffices.kind {outcome : Recognizer × Verdict Unit}
    (h : Suffices agenda outcome seen other.ahead) (hpasses : Passes recognizer outcome.1 seen)
    (hseen : IsClosed agenda → outcome.2 = .accepted () → seen ≠ []) :
    other.kind = recognizer.kind := by
  rcases h with hother | ⟨hclosed, haccepted, hother⟩
  · exact kind_eq_of_shared (by simp) hpasses.starts hother
  · refine kind_eq_of_shared (hseen hclosed haccepted) ?_ hother
    exact (List.prefix_append seen _).trans hpasses.starts

/-- A run goes the same way from every place in front of what suffices. It passes some token when
it accepts a closed agenda, since only tokens end one. -/
def IsLocal (moves : Nat) (recognizer : Recognizer) (agenda : List Goal) : Prop :=
  ∃ seen, Passes recognizer (run moves recognizer agenda).1 seen ∧
    (IsClosed agenda → agenda ≠ [] → (run moves recognizer agenda).2 = .accepted () →
      seen ≠ []) ∧
    ∀ other, Beside recognizer other →
      Suffices agenda (run moves recognizer agenda) seen other.ahead →
        SameWay seen (run moves recognizer agenda) other (run moves other agenda)

/-- A run with nothing to do is local. -/
theorem is_local_nil (moves : Nat) (recognizer : Recognizer) : IsLocal moves recognizer [] := by
  refine ⟨[], ?_⟩
  simp only [run]
  exact ⟨Passes.refl recognizer, fun _ hne ↦ absurd rfl hne,
    fun other hbeside _ ↦ ⟨Passes.refl other, hbeside.depth, rfl⟩⟩

/-- A run without moves is local. -/
theorem is_local_zero (recognizer : Recognizer) (goal : Goal) (rest : List Goal) :
    IsLocal 0 recognizer (goal :: rest) := by
  refine ⟨[], Passes.stay recognizer _, fun _ _ haccepted ↦ ?_,
    fun other hbeside _ ↦ ⟨Passes.stay other _, ?_, trivial⟩⟩
  · cases haccepted
  · exact congrArg (· - openLevels (goal :: rest)) hbeside.depth

/-- A run whose first step fails is local. -/
theorem is_local_of_error {error : Diagnostic} (moves : Nat)
    (h : recognizer.step goal rest = .error error) :
    IsLocal (moves + 1) recognizer (goal :: rest) := by
  have hrun : run (moves + 1) recognizer (goal :: rest) =
      (recognizer.ascend (openLevels rest), .rejected error) := by
    rw [run, h]
  rw [IsLocal, hrun]
  refine ⟨[], Passes.stay recognizer _, fun _ _ haccepted ↦ ?_, fun other hbeside hsuffices ↦ ?_⟩
  · cases haccepted
  · have hkind : other.kind = recognizer.kind :=
      hsuffices.kind (Passes.stay recognizer _) fun _ haccepted ↦ by cases haccepted
    obtain ⟨reason, rfl, hother⟩ := step_error_local h hbeside hkind
    rw [run, hother]
    refine ⟨Passes.stay other _, ?_, reason, rfl, rfl⟩
    exact congrArg (· - openLevels rest) hbeside.depth

/-- A run is local whose first step leads to a local run. -/
theorem is_local_of_ok {moves : Nat} (htables : recognizer.tables = .standard)
    (hends : recognizer.EndsInput) (hguarded : Guarded recognizer.kind (goal :: rest))
    (h : recognizer.step goal rest = .ok (next, agenda)) (hnext : IsLocal moves next agenda) :
    IsLocal (moves + 1) recognizer (goal :: rest) := by
  have hrun : run (moves + 1) recognizer (goal :: rest) = run moves next agenda := by
    rw [run, h]
  obtain ⟨first, hfirst, htakes, hfollow⟩ := step_local htables hends hguarded h
  obtain ⟨later, hlater, hsome, hsame⟩ := hnext
  rw [IsLocal, hrun]
  have hseen (hclosed : IsClosed (goal :: rest))
      (haccepted : (run moves next agenda).2 = .accepted ()) : first ++ later ≠ [] := by
    obtain ⟨hclosed, hlast⟩ := step_closed hclosed h
    by_cases hagenda : agenda = []
    · exact List.append_ne_nil_of_left_ne_nil (htakes (hlast hagenda)) later
    · exact List.append_ne_nil_of_right_ne_nil first (hsome hclosed hagenda haccepted)
  refine ⟨first ++ later, hfirst.trans hlater, fun hclosed _ ↦ hseen hclosed,
    fun other hbeside hsuffices ↦ ?_⟩
  have hkind := hsuffices.kind (hfirst.trans hlater) hseen
  obtain ⟨otherNext, hother, hpassed, hbesideNext⟩ := hfollow other hbeside hkind
  -- What suffices for the whole run is what the step has passed and what suffices for the rest.
  have hrest : Suffices agenda (run moves next agenda) later otherNext.ahead := by
    rw [Suffices, hpassed.ahead, List.append_assoc, List.prefix_append_right_inj,
      List.prefix_append_right_inj] at hsuffices
    exact hsuffices.imp id fun hclosed ↦ ⟨(step_closed hclosed.1 h).1, hclosed.2⟩
  obtain ⟨hpasses, hdepth, halike⟩ := hsame otherNext hbesideNext hrest
  rw [run, hother]
  exact ⟨hpassed.trans hpasses, hdepth, halike⟩

/-- Runs with the standard tables are local. -/
theorem run_local (moves : Nat) (htables : recognizer.tables = .standard)
    (hends : recognizer.EndsInput) (hguarded : Guarded recognizer.kind agenda) :
    IsLocal moves recognizer agenda := by
  induction moves generalizing recognizer agenda with
  | zero =>
      cases agenda with
      | nil => exact is_local_nil 0 recognizer
      | cons goal rest => exact is_local_zero recognizer goal rest
  | succ moves ih =>
      cases agenda with
      | nil => exact is_local_nil _ recognizer
      | cons goal rest =>
          cases hstep : recognizer.step goal rest with
          | error error => exact is_local_of_error moves hstep
          | ok result =>
              obtain ⟨next, agenda⟩ := result
              obtain ⟨hnext, hnextEnds, hnextGuarded, -⟩ :=
                step_lowers htables hends hguarded hstep
              exact is_local_of_ok htables hends hguarded hstep (ih hnext hnextEnds hnextGuarded)

/-- Runs of one agenda that do not stall end in the same place, whatever moves they were granted. -/
theorem run_unique {first second : Nat} (hfirst : (run first recognizer agenda).2 ≠ .stalled)
    (hsecond : (run second recognizer agenda).2 ≠ .stalled) :
    run first recognizer agenda = run second recognizer agenda := by
  induction first generalizing second recognizer agenda with
  | zero =>
      cases agenda with
      | nil => simp only [run]
      | cons goal rest => exact absurd rfl hfirst
  | succ first ih =>
      cases agenda with
      | nil => simp only [run]
      | cons goal rest =>
          cases second with
          | zero => exact absurd rfl hsecond
          | succ second =>
              rw [run] at hfirst ⊢
              rw [run] at hsecond ⊢
              split at hfirst
              · next next agenda hstep =>
                simp only [hstep] at hsecond
                exact ih hfirst hsecond
              · rfl

end Recognizer

end Decaf
