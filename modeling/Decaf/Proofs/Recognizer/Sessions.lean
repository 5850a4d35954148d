import Decaf.Proofs.Recognizer.Blame

/-!
# What a session keeps

A session may take any steps in any order, with any rules in the tables. `During` holds of the
states that a recognizer goes through while it performs a step: those a rule goes through turn by
turn, and those of a nested step some levels deeper. In all of them the tokens are the same, the
current token is one of them, the way gone gets no shorter, and the depth stays within the limit
(`during_follows`). Behind a step, however it ended, the recognizer is as deep as in front of it
(`perform_keeps`). A nested step is reached exactly if its levels fit under the limit
(`nested_of_le`, `nested_of_lt`).
-/

namespace Decaf

namespace Recognizer

variable {recognizer state : Recognizer} {step : Step}

/-! ## Levels -/

/-- An action within the limit is run all its levels deeper. -/
theorem nested_of_le {α : Type} (action : Recognizer → Recognizer × α) {levels : Nat}
    (h : recognizer.depth + levels ≤ nestingLimit) :
    nested action levels recognizer =
      ((action { recognizer with depth := recognizer.depth + levels }).1.ascend levels,
        .ok (action { recognizer with depth := recognizer.depth + levels }).2) := by
  induction levels generalizing recognizer with
  | zero => rfl
  | succ levels ih =>
      have hinner : recognizer.descend.depth + levels ≤ nestingLimit := by
        show recognizer.depth + 1 + levels ≤ nestingLimit
        omega
      have hdeeper : recognizer.depth + 1 + levels = recognizer.depth + (levels + 1) := by omega
      rw [nested, if_pos (by omega), ih hinner]
      simp only [descend, ascend, hdeeper, Nat.sub_sub]

/-- An action beyond the limit is not run. The error is about the current token. -/
theorem nested_of_lt {α : Type} (action : Recognizer → Recognizer × α) {levels : Nat}
    (hdepth : recognizer.depth ≤ nestingLimit) (h : nestingLimit < recognizer.depth + levels) :
    nested action levels recognizer =
      (recognizer, .error (recognizer.unexpected (some "nesting too deep"))) := by
  induction levels generalizing recognizer with
  | zero => omega
  | succ levels ih =>
      rw [nested]
      split
      · next hlt =>
        have hinner : nestingLimit < recognizer.descend.depth + levels := by
          show nestingLimit < recognizer.depth + 1 + levels
          omega
        -- The inner levels fail for the token that is current here too.
        rw [ih (show recognizer.depth + 1 ≤ nestingLimit from hlt) hinner]
        rfl
      · rfl

/-- A recognizer that has come some way and stays as deep. -/
structure Keeps (recognizer next : Recognizer) : Prop extends Follows recognizer next where
  depth : next.depth = recognizer.depth

/-- What an action keeps from every state, it keeps any number of levels deeper. -/
theorem nested_keeps {α : Type} {action : Recognizer → Recognizer × α}
    (h : ∀ recognizer, Keeps recognizer (action recognizer).1) (levels : Nat)
    (recognizer : Recognizer) : Keeps recognizer (nested action levels recognizer).1 := by
  induction levels generalizing recognizer with
  | zero => exact h recognizer
  | succ levels ih =>
      rw [nested]
      split
      · obtain ⟨hfollows, hdepth⟩ := ih recognizer.descend
        refine ⟨⟨hfollows.tokens, hfollows.index⟩, ?_⟩
        show (nested action levels recognizer.descend).1.depth - 1 = recognizer.depth
        rw [hdepth]
        exact Nat.add_sub_cancel recognizer.depth 1
      · exact ⟨Follows.stay recognizer recognizer.depth, rfl⟩

/-! ## Steps -/

/-- Taking a token if it is of a kind stays as deep. -/
theorem expect_keeps (recognizer : Recognizer) (kind : TokenKind) (error : Option Diagnostic) :
    Keeps recognizer (recognizer.expect kind error).1 := by
  unfold expect
  split
  · exact ⟨Follows.advance recognizer, depth_advance recognizer⟩
  · exact ⟨Follows.stay recognizer recognizer.depth, rfl⟩

/-- Recognizing a single goal ends as deep as it starts. -/
theorem recognize_keeps (recognizer : Recognizer) {goal : Goal} (hgoal : goal ≠ .surface) :
    Keeps recognizer (recognizer.recognize [goal]).1 := by
  refine ⟨run_follows _ recognizer _, run_depth _ recognizer _ ?_⟩
  rw [open_levels_of_ne hgoal]
  rfl

/-- A step never leads back and ends as deep as it starts, however it ends. -/
theorem perform_keeps (step : Step) (recognizer : Recognizer) :
    Keeps recognizer (recognizer.perform step).1 := by
  induction step generalizing recognizer with
  | advance => exact ⟨Follows.advance recognizer, depth_advance recognizer⟩
  | expect kind error => exact expect_keeps recognizer kind error
  | rule rule => exact recognize_keeps recognizer (by simp)
  | graded rule power => exact recognize_keeps recognizer (by simp)
  | nested levels inner ih =>
      have hkeeps := nested_keeps ih levels recognizer
      rw [perform]
      split
      · next next answer hnested => rwa [hnested] at hkeeps
      · next next error hnested => rwa [hnested] at hkeeps
  | look | unexpected reason | entries kind | register registrations =>
      exact ⟨⟨rfl, Nat.le_refl _⟩, rfl⟩

/-- The states of a recognizer while it performs a step: where it starts and where it ends, and in
between what a rule goes through turn by turn, or what a nested step goes through level by level. -/
inductive During : Step → Recognizer → Recognizer → Prop where
  | start (step : Step) (recognizer : Recognizer) : During step recognizer recognizer
  | rule {recognizer state : Recognizer} {rule : Rule} {agenda : List Goal}
      (h : Relation.ReflTransGen Turn (recognizer, [.rule rule]) (state, agenda)) :
      During (.rule rule) recognizer state
  | graded {recognizer state : Recognizer} {rule : GradedRule} {power : Power}
      {agenda : List Goal}
      (h : Relation.ReflTransGen Turn (recognizer, [.graded rule power]) (state, agenda)) :
      During (.graded rule power) recognizer state
  | inside {recognizer state : Recognizer} {inner : Step} (h : During inner recognizer state) :
      During (.nested 0 inner) recognizer state
  | deeper {recognizer state : Recognizer} {levels : Nat} {inner : Step}
      (hdepth : recognizer.depth < nestingLimit)
      (h : During (.nested levels inner) recognizer.descend state) :
      During (.nested (levels + 1) inner) recognizer state
  | finish (step : Step) (recognizer : Recognizer) :
      During step recognizer (recognizer.perform step).1

/-- While a step is performed the recognizer never goes back, nor deeper than the limit. -/
theorem during_follows (h : During step recognizer state)
    (hdepth : recognizer.depth ≤ nestingLimit) :
    Follows recognizer state ∧ state.depth ≤ nestingLimit := by
  induction h with
  | start step recognizer => exact ⟨Follows.stay recognizer recognizer.depth, hdepth⟩
  | rule hturns | graded hturns =>
      obtain ⟨hfollows, hle⟩ := turns_follow hturns
      exact ⟨hfollows, hle hdepth⟩
  | inside _ ih => exact ih hdepth
  | @deeper recognizer state levels inner hlt _ ih =>
      obtain ⟨hfollows, hle⟩ := ih hlt
      exact ⟨⟨hfollows.tokens, hfollows.index⟩, hle⟩
  | finish step recognizer =>
      have hkeeps := perform_keeps step recognizer
      refine ⟨hkeeps.toFollows, ?_⟩
      rw [hkeeps.depth]
      exact hdepth

/-- One more level within the limit changes neither the answer nor what is done below it. -/
theorem perform_nested_succ {levels : Nat} {inner : Step}
    (hdepth : recognizer.depth < nestingLimit) :
    recognizer.perform (.nested (levels + 1) inner) =
      ((recognizer.descend.perform (.nested levels inner)).1.ascend 1,
        (recognizer.descend.perform (.nested levels inner)).2) := by
  simp only [perform, nested, if_pos hdepth]
  cases nested (perform inner) levels recognizer.descend with
  | mk next outcome => cases outcome <;> rfl

/-- A step that returns ends behind all the states it goes through. -/
theorem during_index_le (h : During step recognizer state)
    (hreturns : (recognizer.perform step).2.verdict? ≠ some .stalled) :
    state.index ≤ (recognizer.perform step).1.index := by
  induction h with
  | start step recognizer => exact (perform_keeps step recognizer).index
  | rule hturns | graded hturns =>
      have hends := fun hstalled ↦ hreturns (congrArg some hstalled)
      obtain ⟨fewer, hrun⟩ := run_of_turns hturns hends
      simp only [perform, recognize]
      rw [hrun]
      exact (run_follows fewer _ _).index
  | inside _ ih => exact ih hreturns
  | deeper hdepth _ ih =>
      rw [perform_nested_succ hdepth] at hreturns ⊢
      exact ih hreturns
  | finish step recognizer => exact Nat.le_refl _

/-! ## Sessions -/

/-- The recognizer behind some steps of a session. -/
def afterAll (recognizer : Recognizer) (steps : List Step) : Recognizer :=
  steps.foldl (fun recognizer step ↦ (recognizer.perform step).1) recognizer

/-- A session goes on from the recognizer behind the steps taken. -/
theorem perform_all_append (recognizer : Recognizer) (done rest : List Step) :
    recognizer.performAll (done ++ rest) =
      recognizer.performAll done ++ (recognizer.afterAll done).performAll rest := by
  induction done generalizing recognizer with
  | nil => rfl
  | cons step done ih =>
      show _ :: (recognizer.perform step).1.performAll (done ++ rest) = _
      rw [ih]
      rfl

/-- Steps never lead back and end as deep as they start. -/
theorem after_all_keeps (recognizer : Recognizer) (steps : List Step) :
    Keeps recognizer (recognizer.afterAll steps) := by
  induction steps generalizing recognizer with
  | nil => exact ⟨Follows.stay recognizer recognizer.depth, rfl⟩
  | cons step steps ih =>
      have hstep := perform_keeps step recognizer
      have hrest := ih (recognizer.perform step).1
      exact ⟨hstep.toFollows.trans hrest.toFollows, hrest.depth.trans hstep.depth⟩

/-- A recognizer starts outside all levels. -/
theorem depth_start (tokens : List Token) (file : String) : (start tokens file).depth = 0 := by
  cases tokens <;> rfl

/-- A state of a session on some input, behind an earlier one: its tokens are the input and the end
of input, its current token stands among them at its index, which is no lower than before, and it is
within the limit on nesting. -/
structure InSession (input : List Token) (file : String) (earlier state : Recognizer) :
    Prop where
  tokens : state.tokens = input ++ [endToken input file]
  current : (input ++ [endToken input file])[state.index]? = some state.current
  index_le : earlier.index ≤ state.index
  depth_le : state.depth ≤ nestingLimit

/-- Every state of a session has the tokens of its start and stands at one of them. -/
theorem during_in_session {tokens : List Token} {file : String} {done : List Step}
    (h : During step ((start tokens file).afterAll done) state) :
    InSession tokens file ((start tokens file).afterAll done) state := by
  have hkeeps := after_all_keeps (start tokens file) done
  have hdepth : ((start tokens file).afterAll done).depth ≤ nestingLimit := by
    rw [hkeeps.depth, depth_start]
    exact Nat.zero_le _
  obtain ⟨hfollows, hle⟩ := during_follows h hdepth
  have htokens : state.tokens = tokens ++ [endToken tokens file] := by
    rw [hfollows.tokens, hkeeps.tokens, tokens_start]
  have hcurrent := state.tokens_index
  rw [htokens] at hcurrent
  exact ⟨htokens, hcurrent, hfollows.index, hle⟩

end Recognizer

open Recognizer

/-- Whatever steps are taken, and whatever rules stand in the tables, a session keeps its tokens and
stands at one of them, never goes back, never goes deeper than the limit on nesting, not even while
a step is performed, and is behind every step as deep as it was in front of it. From every state
that it goes through, an action some levels deeper is run if and only if the levels fit under the
limit, and it then keeps what it keeps by itself; otherwise the error is that the current token is
nested too deep. -/
theorem session_invariant (tokens : List Token) (file : String) (done : List Step) (step : Step) :
    let recognizer := (start tokens file).afterAll done
    (∀ rest, (start tokens file).performAll (done ++ step :: rest) =
        (start tokens file).performAll done ++
          ((recognizer.perform step).2, (recognizer.perform step).1) ::
            (recognizer.perform step).1.performAll rest) ∧
      (recognizer.perform step).1.depth = recognizer.depth ∧
      ∀ state, During step recognizer state →
        InSession tokens file recognizer state ∧
          ((recognizer.perform step).2.verdict? ≠ some .stalled →
            state.index ≤ (recognizer.perform step).1.index) ∧
          ∀ (α : Type) (action : Recognizer → Recognizer × α) (levels : Nat),
            ((∃ answer, (nested action levels state).2 = .ok answer) ↔
                state.depth + levels ≤ nestingLimit) ∧
              (state.depth + levels ≤ nestingLimit → (nested action levels state).2 =
                .ok (action { state with depth := state.depth + levels }).2) ∧
              (nestingLimit < state.depth + levels → nested action levels state =
                (state, .error (state.unexpected (some "nesting too deep")))) ∧
              ((∀ other, Keeps other (action other).1) →
                Keeps state (nested action levels state).1) := by
  intro recognizer
  refine ⟨fun rest ↦ perform_all_append _ _ _, (perform_keeps step recognizer).depth,
    fun state h ↦ ?_⟩
  have hstate := during_in_session h
  refine ⟨hstate, during_index_le h, fun α action levels ↦ ⟨⟨?_, ?_⟩, ?_, ?_, ?_⟩⟩
  · intro hreached
    obtain ⟨answer, hanswer⟩ := hreached
    by_contra hlt
    rw [nested_of_lt action hstate.depth_le (Nat.lt_of_not_le hlt)] at hanswer
    cases hanswer
  · intro hle
    exact ⟨_, congrArg Prod.snd (nested_of_le action hle)⟩
  · intro hle
    exact congrArg Prod.snd (nested_of_le action hle)
  · exact nested_of_lt action hstate.depth_le
  · intro hkeeps
    exact nested_keeps hkeeps levels state

/-- A sign has been taken two levels down, with an entry of its own in otherwise empty tables: there
are 254 levels left from there, and one more is too deep for the operand. -/
theorem session_invariant_nested :
    let tokens := [.minus, .intLiteral].map bareToken
    let recognizer := (start tokens "").afterAll [.register [.operand .minus .signed]]
    let state := { recognizer.advance with depth := 2 }
    InSession tokens "" recognizer state ∧
      state.index ≤ (recognizer.perform (.nested 2 (.rule .signed))).1.index ∧
      (nested (perform .look) 254 state).2 = .ok (.state { state with depth := 256 }) ∧
      nested (perform .look) 255 state =
        (state, .error ⟨.unexpectedToken "" (some "nesting too deep"), .point "" .start⟩) ∧
      Keeps state (nested (perform .look) 255 state).1 := by
  intro tokens recognizer state
  have hduring : During (.nested 2 (.rule .signed)) recognizer state :=
    .deeper (by decide) (.deeper (by decide) (.inside
      (.rule (.head (.work rfl) (.head (.work rfl) .refl)))))
  obtain ⟨-, -, hstates⟩ :=
    session_invariant tokens "" [.register [.operand .minus .signed]] (.nested 2 (.rule .signed))
  obtain ⟨hstate, hindex, hnested⟩ := hstates state hduring
  obtain ⟨-, hreached, -, -⟩ := hnested Answer (perform .look) 254
  obtain ⟨-, -, hdeep, hkeeps⟩ := hnested Answer (perform .look) 255
  exact ⟨hstate, hindex (by decide +kernel), hreached (by decide), hdeep (by decide),
    hkeeps (perform_keeps .look)⟩

end Decaf
