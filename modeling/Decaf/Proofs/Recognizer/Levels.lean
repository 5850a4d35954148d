import Decaf.Proofs.Recognizer.Relevance

/-!
# Recognition with a number of levels to spare

What becomes of some goals in front of some kinds is settled by the kinds alone and by how many
levels of nesting may still be opened. `Clears` derives that goals are worked off within a number of
levels, and what they leave, with one level less for the goals behind a level; `Exceeds` derives
that they come to open one level too many, and where. `Clears.exceeds` says that goals which are
worked off within some number of levels are worked off within any other number or exceed it, so one
derivation decides for recognizers at every depth. `turns_of_clears` and `turns_of_exceeds` turn
the derivations into turns of a run, and `recognize_of_clears` and `recognize_of_exceeds` into its
end.
-/

namespace Decaf

/-- A move of the first goal that opens no level: it takes the kind in front of it, or gives way to
other goals. -/
inductive Shift : List Goal × List TokenKind → List Goal × List TokenKind → Prop where
  | take {goal : Goal} {rest : List Goal} {kind : TokenKind} {ahead : List TokenKind}
      (hmove : Tables.standard.move kind goal = .take) (hkind : kind ≠ .endOfInput) :
      Shift (goal :: rest, kind :: ahead) (rest, ahead)
  | expand {goal : Goal} {goals rest : List Goal} {kind : TokenKind} {ahead : List TokenKind}
      (hmove : Tables.standard.move kind goal = .expand goals) :
      Shift (goal :: rest, kind :: ahead) (goals ++ rest, kind :: ahead)

/-- The goals are worked off in front of the kinds ahead, in at most the given number of levels, and
leave the last kinds. -/
inductive Clears : Nat → List Goal → List TokenKind → List TokenKind → Prop where
  | done {levels : Nat} {left : List TokenKind} : Clears levels [] left left
  | shift {levels : Nat} {agenda later : List Goal} {ahead behind left : List TokenKind}
      (hshift : Shift (agenda, ahead) (later, behind)) (h : Clears levels later behind left) :
      Clears levels agenda ahead left
  | nest {levels : Nat} {goal : Goal} {goals rest : List Goal} {kind : TokenKind}
      {ahead middle left : List TokenKind}
      (hmove : Tables.standard.move kind goal = .nest goals) (hkind : kind ≠ .endOfInput)
      (hinner : Clears levels goals (kind :: ahead) middle)
      (houter : Clears (levels + 1) rest middle left) :
      Clears (levels + 1) (goal :: rest) (kind :: ahead) left

/-- The goals come to open a level beyond the given number of levels in front of the last kinds. -/
inductive Exceeds : Nat → List Goal → List TokenKind → List TokenKind → Prop where
  | here {goal : Goal} {goals rest : List Goal} {kind : TokenKind} {ahead : List TokenKind}
      (hmove : Tables.standard.move kind goal = .nest goals) (hkind : kind ≠ .endOfInput) :
      Exceeds 0 (goal :: rest) (kind :: ahead) (kind :: ahead)
  | shift {levels : Nat} {agenda later : List Goal} {ahead behind left : List TokenKind}
      (hshift : Shift (agenda, ahead) (later, behind)) (h : Exceeds levels later behind left) :
      Exceeds levels agenda ahead left
  | inside {levels : Nat} {goal : Goal} {goals rest : List Goal} {kind : TokenKind}
      {ahead left : List TokenKind} (hmove : Tables.standard.move kind goal = .nest goals)
      (hinner : Exceeds levels goals (kind :: ahead) left) :
      Exceeds (levels + 1) (goal :: rest) (kind :: ahead) left
  | behind {levels : Nat} {goal : Goal} {goals rest : List Goal} {kind : TokenKind}
      {ahead middle left : List TokenKind}
      (hmove : Tables.standard.move kind goal = .nest goals)
      (hinner : Clears levels goals (kind :: ahead) middle)
      (houter : Exceeds (levels + 1) rest middle left) :
      Exceeds (levels + 1) (goal :: rest) (kind :: ahead) left

/-- What is worked off in some levels is worked off in more. -/
theorem Clears.mono {levels more : Nat} {goals : List Goal} {ahead left : List TokenKind}
    (h : Clears levels goals ahead left) (hle : levels ≤ more) : Clears more goals ahead left := by
  induction h generalizing more with
  | done => exact .done
  | shift hshift _ ih => exact .shift hshift (ih hle)
  | nest hmove hkind _ _ ihinner ihouter =>
      obtain ⟨more, rfl⟩ := Nat.exists_eq_add_of_le' (Nat.lt_of_lt_of_le (Nat.succ_pos _) hle)
      exact .nest hmove hkind (ihinner (Nat.le_of_succ_le_succ hle)) (ihouter hle)

/-- Goals behind moves that open no level are worked off. -/
theorem Clears.shifts {levels : Nat} {first second : List Goal × List TokenKind}
    {left : List TokenKind} (hshifts : Relation.ReflTransGen Shift first second)
    (h : Clears levels second.1 second.2 left) : Clears levels first.1 first.2 left := by
  induction hshifts using Relation.ReflTransGen.head_induction_on with
  | refl => exact h
  | head hshift _ ih => exact .shift hshift ih

/-- Goals behind moves that open no level exceed the levels. -/
theorem Exceeds.shifts {levels : Nat} {first second : List Goal × List TokenKind}
    {left : List TokenKind} (hshifts : Relation.ReflTransGen Shift first second)
    (h : Exceeds levels second.1 second.2 left) : Exceeds levels first.1 first.2 left := by
  induction hshifts using Relation.ReflTransGen.head_induction_on with
  | refl => exact h
  | head hshift _ ih => exact .shift hshift ih

namespace Recognizer

variable {recognizer next : Recognizer} {goals agenda : List Goal} {ahead left : List TokenKind}

/-! ## Derivations are run -/

/-- A recognizer with the standard tables in front of some kinds, the last of them the end of
input. -/
structure Faces (recognizer : Recognizer) (ahead : List TokenKind) : Prop where
  tables : recognizer.tables = .standard
  ends_input : recognizer.EndsInput
  ahead : recognizer.ahead = ahead

/-- What has been passed leaves a recognizer in front of the rest. -/
theorem Faces.passes {seen : List TokenKind} (h : Faces recognizer ahead)
    (hpasses : Passes recognizer next seen) (hahead : next.ahead = left) : Faces next left :=
  ⟨hpasses.tables.trans h.tables, hpasses.ends_input h.ends_input, hahead⟩

/-- The kind in front of a recognizer is the first one ahead. -/
theorem Faces.kind {kind : TokenKind} (h : Faces recognizer (kind :: ahead)) :
    recognizer.kind = kind :=
  (List.cons.inj h.ahead).1

/-- One level deeper a recognizer stands in front of the same kinds. -/
theorem Faces.descend (h : Faces recognizer ahead) : Faces recognizer.descend ahead :=
  ⟨h.tables, h.ends_input, h.ahead⟩

/-- What has been passed one level deeper has been passed. -/
theorem Passes.of_descend {seen : List TokenKind} (h : Passes recognizer.descend next seen) :
    Passes recognizer next seen :=
  ⟨h.ahead, h.index, h.tables, h.no_end⟩

/-- What has been passed stays passed some levels up. -/
theorem Passes.ascend {seen : List TokenKind} (h : Passes recognizer next seen) (levels : Nat) :
    Passes recognizer (next.ascend levels) seen :=
  ⟨h.ahead, h.index, h.tables, h.no_end⟩

/-- A turn that leads no deeper than the given depth. -/
def TurnWithin (depth : Nat) (first second : Recognizer × List Goal) : Prop :=
  Turn first second ∧ second.1.depth ≤ depth

/-- A move that opens no level is a turn, in front of any other goals. -/
theorem shift_turn {later : List Goal} {behind : List TokenKind}
    (h : Shift (agenda, ahead) (later, behind)) (hfaces : Faces recognizer ahead) :
    ∃ next seen, Passes recognizer next seen ∧ next.ahead = behind ∧
      next.depth = recognizer.depth ∧
        ∀ rest, Turn (recognizer, agenda ++ rest) (next, later ++ rest) := by
  cases h with
  | @take goal below kind _ hmove hkind =>
      rw [← hfaces.kind, ← hfaces.tables] at hmove
      rw [← hfaces.kind] at hkind
      have hahead := hfaces.ends_input.ahead_advance hkind
      rw [hfaces.ahead] at hahead
      refine ⟨recognizer.advance, _, Passes.take hfaces.ends_input hkind,
        (List.cons.inj hahead).2.symm, depth_advance recognizer, fun rest ↦ .work ?_⟩
      show recognizer.step goal (later ++ rest) = _
      simp only [step, hmove]
  | @expand goal goals below kind _ hmove =>
      rw [← hfaces.kind, ← hfaces.tables] at hmove
      refine ⟨recognizer, [], Passes.refl recognizer, hfaces.ahead, rfl, fun rest ↦ .work ?_⟩
      show recognizer.step goal (below ++ rest) = _
      simp only [step, hmove, List.append_assoc]

/-- A move that opens a level is a turn where the limit leaves room for it. -/
theorem nest_turn {goal : Goal} {kind : TokenKind}
    (hmove : Tables.standard.move kind goal = .nest goals)
    (hfaces : Faces recognizer (kind :: ahead)) (hdepth : recognizer.depth < nestingLimit)
    (rest : List Goal) :
    Turn (recognizer, goal :: rest) (recognizer.descend, goals ++ .surface :: rest) := by
  rw [← hfaces.kind, ← hfaces.tables] at hmove
  refine .work ?_
  simp only [step, hmove, if_pos hdepth]

/-- Goals that are worked off in some levels are worked off in turns no more levels deeper, if the
limit leaves room for them. -/
theorem turns_of_clears {levels : Nat} (h : Clears levels goals ahead left)
    (hfaces : Faces recognizer ahead) (hlevels : levels ≤ nestingLimit - recognizer.depth) :
    ∃ next seen, Passes recognizer next seen ∧ next.ahead = left ∧
      next.depth = recognizer.depth ∧
        ∀ rest, Relation.ReflTransGen (TurnWithin (recognizer.depth + levels))
          (recognizer, goals ++ rest) (next, rest) := by
  induction h generalizing recognizer with
  | done =>
      exact ⟨recognizer, [], Passes.refl recognizer, hfaces.ahead, rfl, fun rest ↦ .refl⟩
  | shift hshift _ ih =>
      obtain ⟨middle, first, hfirst, hahead, hdepth, hturn⟩ := shift_turn hshift hfaces
      obtain ⟨next, later, hlater, hleft, hnext, hturns⟩ :=
        ih (hfaces.passes hfirst hahead) (by rwa [hdepth])
      rw [hdepth] at hnext hturns
      exact ⟨next, first ++ later, hfirst.trans hlater, hleft, hnext,
        fun rest ↦ .head ⟨hturn rest, by rw [hdepth]; exact Nat.le_add_right _ _⟩ (hturns rest)⟩
  | @nest levels goal goals rest kind ahead middle left hmove _ _ _ ihinner ihouter =>
      have hdepth : recognizer.depth < nestingLimit := by omega
      have hbelow : recognizer.descend.depth = recognizer.depth + 1 := rfl
      obtain ⟨deep, first, hfirst, hmiddle, hdeep, hinner⟩ := ihinner hfaces.descend (by omega)
      -- The level is closed again, in front of what the goals behind it have to work on.
      have hup : (deep.ascend 1).depth = recognizer.depth := by
        show deep.depth - 1 = _
        omega
      have hpassed : Passes recognizer (deep.ascend 1) first := hfirst.of_descend.ascend 1
      obtain ⟨next, later, hlater, hleft, hnext, houter⟩ :=
        ihouter (hfaces.passes hpassed hmiddle) (by omega)
      have hsame : recognizer.depth + 1 + levels = recognizer.depth + (levels + 1) := by omega
      rw [hbelow, hsame] at hinner
      rw [hup] at hnext houter
      refine ⟨next, first ++ later, hpassed.trans hlater, hleft, hnext, fun below ↦ ?_⟩
      have hopen : TurnWithin (recognizer.depth + (levels + 1))
          (recognizer, goal :: (rest ++ below))
          (recognizer.descend, goals ++ .surface :: (rest ++ below)) := by
        refine ⟨nest_turn hmove hfaces hdepth _, ?_⟩
        show recognizer.depth + 1 ≤ _
        omega
      have hclose : TurnWithin (recognizer.depth + (levels + 1)) (deep, .surface :: (rest ++ below))
          (deep.ascend 1, rest ++ below) := by
        refine ⟨.work rfl, ?_⟩
        show (deep.ascend 1).depth ≤ _
        omega
      exact .head hopen ((hinner _).trans (.head hclose (houter below)))

/-- A turn within a depth is a turn. -/
theorem turns_of_within {depth : Nat} {first second : Recognizer × List Goal}
    (h : Relation.ReflTransGen (TurnWithin depth) first second) :
    Relation.ReflTransGen Turn first second := by
  have hle : TurnWithin depth ≤ Turn := fun _ _ hturn ↦ hturn.1
  exact Relation.ReflTransGen.mono hle _ _ h

/-- Goals that exceed the levels which the limit leaves come to a step that fails for this. -/
theorem turns_of_exceeds {levels : Nat} (h : Exceeds levels goals ahead left)
    (hfaces : Faces recognizer ahead) (hlevels : levels = nestingLimit - recognizer.depth) :
    ∃ last seen, Passes recognizer last seen ∧ last.ahead = left ∧ last.kind ≠ .endOfInput ∧
      ∀ rest, ∃ goal below, Relation.ReflTransGen Turn (recognizer, goals ++ rest)
          (last, goal :: below) ∧
        last.step goal below = .error (last.unexpected (some "nesting too deep")) := by
  induction h generalizing recognizer with
  | @here goal goals rest kind ahead hmove hkind =>
      have hdepth : ¬ recognizer.depth < nestingLimit := by omega
      rw [← hfaces.kind, ← hfaces.tables] at hmove
      refine ⟨recognizer, [], Passes.refl recognizer, hfaces.ahead, ?_, fun below ↦
        ⟨goal, rest ++ below, .refl, ?_⟩⟩
      · rwa [hfaces.kind]
      · simp only [step, hmove, if_neg hdepth]
  | shift hshift _ ih =>
      obtain ⟨middle, first, hfirst, hahead, hdepth, hturn⟩ := shift_turn hshift hfaces
      obtain ⟨last, later, hlater, hleft, hkind, hturns⟩ :=
        ih (hfaces.passes hfirst hahead) (by rwa [hdepth])
      refine ⟨last, first ++ later, hfirst.trans hlater, hleft, hkind, fun rest ↦ ?_⟩
      obtain ⟨goal, below, hrest, herror⟩ := hturns rest
      exact ⟨goal, below, .head (hturn rest) hrest, herror⟩
  | @inside levels goal goals rest kind ahead left hmove _ ih =>
      have hdepth : recognizer.depth < nestingLimit := by omega
      have hbelow : recognizer.descend.depth = recognizer.depth + 1 := rfl
      obtain ⟨last, seen, hseen, hleft, hkind, hturns⟩ := ih hfaces.descend (by omega)
      refine ⟨last, seen, hseen.of_descend, hleft, hkind,
        fun below ↦ ?_⟩
      obtain ⟨goal, left, hrest, herror⟩ := hturns (.surface :: (rest ++ below))
      exact ⟨goal, left, .head (nest_turn hmove hfaces hdepth _) hrest, herror⟩
  | @behind levels goal goals rest kind ahead middle left hmove hinner _ ih =>
      have hdepth : recognizer.depth < nestingLimit := by omega
      have hbelow : recognizer.descend.depth = recognizer.depth + 1 := rfl
      obtain ⟨deep, first, hfirst, hmiddle, hdeep, hinner⟩ :=
        turns_of_clears hinner hfaces.descend (by omega)
      have hup : (deep.ascend 1).depth = recognizer.depth := by
        show deep.depth - 1 = _
        omega
      have hpassed : Passes recognizer (deep.ascend 1) first := hfirst.of_descend.ascend 1
      obtain ⟨last, later, hlater, hleft, hkind, hturns⟩ :=
        ih (hfaces.passes hpassed hmiddle) (by rwa [hup])
      refine ⟨last, first ++ later, hpassed.trans hlater, hleft, hkind, fun below ↦ ?_⟩
      obtain ⟨goal, left, hrest, herror⟩ := hturns below
      exact ⟨goal, left, .head (nest_turn hmove hfaces hdepth _)
        ((turns_of_within (hinner _)).trans (.head (.work rfl) hrest)), herror⟩

/-! ## How runs end -/

/-- What a run goes through on its way to an empty agenda stays within the depth of its turns. -/
theorem depth_le_of_turns {depth : Nat} {first last : Recognizer × List Goal}
    (h : Relation.ReflTransGen (TurnWithin depth) first last) (hlast : last.2 = [])
    (hfirst : first.1.depth ≤ depth) {state : Recognizer × List Goal}
    (hstate : Relation.ReflTransGen Turn first state) : state.1.depth ≤ depth := by
  induction h using Relation.ReflTransGen.head_induction_on with
  | refl =>
      rcases Relation.ReflTransGen.cases_head hstate with rfl | ⟨middle, hturn, -⟩
      · exact hfirst
      · cases hturn
        cases hlast
  | head hturn _ ih =>
      rcases Relation.ReflTransGen.cases_head hstate with rfl | ⟨middle, hother, hrest⟩
      · exact hfirst
      -- A turn has one outcome, so the other run goes the same way.
      · obtain ⟨hturn, hdepth⟩ := hturn
        cases hturn with
        | work hstep =>
            cases hother with
            | work hsame =>
                obtain rfl := Except.ok.inj (hstep.symm.trans hsame)
                exact ih hdepth hrest

/-- Goals that are worked off in the levels that the limit leaves are accepted, and no state on the
way is more levels deeper. -/
theorem recognize_of_clears {levels : Nat} (h : Clears levels goals ahead left)
    (hfaces : Faces recognizer ahead) (hguarded : Guarded recognizer.kind goals)
    (hlevels : levels ≤ nestingLimit - recognizer.depth) :
    ∃ next seen, recognizer.recognize goals = (next, .accepted ()) ∧
      Passes recognizer next seen ∧ next.ahead = left ∧ next.depth = recognizer.depth ∧
        ∀ state agenda, Relation.ReflTransGen Turn (recognizer, goals) (state, agenda) →
          state.depth ≤ recognizer.depth + levels := by
  obtain ⟨next, seen, hpasses, hleft, hdepth, hturns⟩ := turns_of_clears h hfaces hlevels
  have hway := hturns []
  rw [List.append_nil] at hway
  have hends := recognize_ne_stalled hfaces.tables hfaces.ends_input hguarded
  obtain ⟨fewer, hrun⟩ := run_of_turns (turns_of_within hway) hends
  refine ⟨next, seen, hrun.trans ?_, hpasses, hleft, hdepth, fun state agenda hstate ↦
    depth_le_of_turns hway rfl (Nat.le_add_right _ _) hstate⟩
  simp only [run]

/-- Goals that exceed the levels that the limit leaves are rejected for this, at the token where
they do. -/
theorem recognize_of_exceeds {levels : Nat} (h : Exceeds levels goals ahead left)
    (hfaces : Faces recognizer ahead) (hguarded : Guarded recognizer.kind goals)
    (hlevels : levels = nestingLimit - recognizer.depth) :
    ∃ next seen, recognizer.recognize goals =
        (next, .rejected (next.unexpected (some "nesting too deep"))) ∧
      Passes recognizer next seen ∧ next.ahead = left ∧ next.kind ≠ .endOfInput := by
  obtain ⟨last, seen, hpasses, hleft, hkind, hturns⟩ := turns_of_exceeds h hfaces hlevels
  obtain ⟨goal, below, hway, herror⟩ := hturns []
  rw [List.append_nil] at hway
  have hends := recognize_ne_stalled hfaces.tables hfaces.ends_input hguarded
  obtain ⟨fewer, hrun⟩ := run_of_turns hway hends
  refine ⟨last.ascend (openLevels below), seen, hrun.trans ?_, hpasses.ascend _, hleft,
    hkind⟩
  cases fewer with
  | zero => exact absurd (congrArg Prod.snd hrun) hends
  | succ fewer =>
      simp only [run, herror]
      rfl

end Recognizer

end Decaf
