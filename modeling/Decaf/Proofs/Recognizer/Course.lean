import Decaf.Proofs.Recognizer.Steps
import Mathlib.Logic.Relation

/-!
# What every run keeps

Facts about runs with any tables whatever. No move changes the list of tokens or leads back in it,
so the current token is always the one at the index (`run_follows`, `tokens_index`). A run closes
the levels that it opened, however it ends (`run_depth`), because a level is only ever closed behind
the goals it was opened for. A `Turn` is what a run does between two of the states it goes through,
and each of them is on the way to where the run ends (`run_of_turns`). Where a run stops for an
error, the error is about the token it stopped at (`run_rejected`, `declarations_rejected`).
-/

namespace Decaf

/-! ## Levels of nesting in moves -/

/-- The goals that a move gives way to. -/
def Move.goals : Move → List Goal
  | .expand goals | .nest goals => goals
  | .take | .surface | .refuse _ => []

/-- A plain rule leaves the levels of nesting to the recognizer. -/
theorem rule_move_surface (kind : TokenKind) (rule : Rule) :
    .surface ∉ (rule.move kind).goals ∧ rule.move kind ≠ .surface := by
  cases rule with
  | declaration | arguments =>
      simp only [Rule.move]
      split <;> simp [Move.goals, Goal.type, Goal.expression]
  | _ => simp [Rule.move, Move.goals, Goal.type, Goal.expression, Goal.expect]

/-- A graded rule leaves the levels of nesting to the recognizer. -/
theorem graded_move_surface (power : Power) (rule : GradedRule) :
    .surface ∉ (rule.move power).goals ∧ rule.move power ≠ .surface := by
  cases rule <;> simp [GradedRule.move, Move.goals, Goal.expression, Goal.expect]

/-- Entering a construct leaves the levels of nesting to the recognizer. -/
theorem enter_surface (entry : Option Rule) (reason : String) :
    .surface ∉ (Tables.enter entry reason).goals ∧ Tables.enter entry reason ≠ .surface := by
  cases entry <;> simp [Tables.enter, Move.goals]

/-- Going on with a construct leaves the levels of nesting to the recognizer. -/
theorem continue_at_surface {again : Goal} (hagain : again ≠ .surface) (entry : Option GradedRule)
    (binding : Option Power) (power : Power) :
    .surface ∉ (Tables.continueAt entry binding power again).goals ∧
      Tables.continueAt entry binding power again ≠ .surface := by
  unfold Tables.continueAt
  split
  · simp [Move.goals]
  · cases entry <;> simp [Move.goals, hagain.symm]

/-- Only the goal that closes a level closes one, and no goal gives way to it: the recognizer alone
puts it behind the goals of a level. -/
theorem move_surface (tables : Tables) (kind : TokenKind) {goal : Goal} (hgoal : goal ≠ .surface) :
    .surface ∉ (tables.move kind goal).goals ∧ tables.move kind goal ≠ .surface := by
  cases goal with
  | surface => exact absurd rfl hgoal
  | rule rule => exact rule_move_surface kind rule
  | graded rule power => exact graded_move_surface power rule
  | operand | typeHead => exact enter_surface _ _
  | operators power | typeSuffixes power => exact continue_at_surface (by simp) _ _ power
  | anyToken => simp [Tables.move, Move.goals]
  | _ =>
      simp only [Tables.move]
      split <;> simp [Move.goals, Goal.type, Goal.expression, Goal.expect]

namespace Recognizer

variable {recognizer next : Recognizer} {goal : Goal} {rest agenda : List Goal}

/-! ## Tokens -/

/-- The current token is the one at the index. -/
theorem tokens_index (recognizer : Recognizer) :
    recognizer.tokens[recognizer.index]? = some recognizer.current := by
  rw [tokens, index, ← List.length_reverse, List.getElem?_append_right (Nat.le_refl _),
    Nat.sub_self, List.getElem?_cons_zero]

/-- The current token is one of the tokens. -/
theorem current_mem (recognizer : Recognizer) : recognizer.current ∈ recognizer.tokens :=
  List.mem_append_right _ List.mem_cons_self

/-- Moving on adds one to the index as long as that is the index of a token. -/
theorem advance_index (recognizer : Recognizer) :
    recognizer.advance.index =
      if recognizer.index + 1 < recognizer.tokens.length then recognizer.index + 1
      else recognizer.index := by
  have hlength : recognizer.tokens.length = recognizer.index + 1 + recognizer.after.length := by
    simp only [tokens, index, List.length_append, List.length_reverse, List.length_cons]
    omega
  unfold advance
  split
  · next hafter => rw [hlength, hafter, if_neg (by simp)]
  · next hafter =>
    rw [hlength, hafter, if_pos (by simp)]
    rfl

/-- A recognizer has got from one place to another in the same tokens, and not back. -/
structure Follows (recognizer next : Recognizer) : Prop where
  tokens : next.tokens = recognizer.tokens
  index : recognizer.index ≤ next.index

/-- A recognizer that stays follows itself, though it may go deeper or come up. -/
theorem Follows.stay (recognizer : Recognizer) (depth : Nat) :
    Follows recognizer { recognizer with depth := depth } :=
  ⟨rfl, Nat.le_refl _⟩

/-- What follows in two stretches follows. -/
theorem Follows.trans {middle : Recognizer} (hfirst : Follows recognizer middle)
    (hsecond : Follows middle next) : Follows recognizer next :=
  ⟨hsecond.tokens.trans hfirst.tokens, Nat.le_trans hfirst.index hsecond.index⟩

/-- Moving on never leads back. -/
theorem Follows.advance (recognizer : Recognizer) : Follows recognizer recognizer.advance := by
  refine ⟨tokens_advance recognizer, ?_⟩
  rw [advance_index]
  split <;> omega

/-- No step leads back. -/
theorem step_follows (h : recognizer.step goal rest = .ok (next, agenda)) :
    Follows recognizer next := by
  rcases step_ok h with ⟨-, rfl, -⟩ | ⟨_, -, rfl, -⟩ | ⟨_, -, -, rfl, -⟩ | ⟨-, rfl, -⟩
  · exact Follows.advance recognizer
  · exact Follows.stay next next.depth
  · exact Follows.stay recognizer _
  · exact Follows.stay recognizer _

/-- No run leads back. -/
theorem run_follows (moves : Nat) (recognizer : Recognizer) (agenda : List Goal) :
    Follows recognizer (run moves recognizer agenda).1 := by
  fun_induction run moves recognizer agenda with
  | case1 moves recognizer => exact Follows.stay recognizer recognizer.depth
  | case2 recognizer goal rest => exact Follows.stay recognizer _
  | case3 moves recognizer goal rest next agenda hstep ih => exact (step_follows hstep).trans ih
  | case4 moves recognizer goal rest error hstep => exact Follows.stay recognizer _

/-- What recognizing one declaration keeps, recognizing declarations up to the end of input keeps
too. -/
theorem declarations_keep {α : Type} {part : Recognizer → α}
    (h : ∀ recognizer, part (recognizer.recognize [.rule .declaration]).1 = part recognizer)
    (recognizer : Recognizer) (count : Nat) :
    part (recognizer.declarations count).1 = part recognizer := by
  fun_induction declarations recognizer count with
  | case1 recognizer count hmore next hrun hshort ih => rw [ih, ← h recognizer, hrun]
  | case2 recognizer count hmore next hrun hlong => rw [← h recognizer, hrun]
  | case3 recognizer count hmore next error hrun => rw [← h recognizer, hrun]
  | case4 recognizer count hmore next hrun => rw [← h recognizer, hrun]
  | case5 recognizer count hnone => rfl

/-- Recognizing declarations does not change the tokens. -/
theorem declarations_tokens (recognizer : Recognizer) (count : Nat) :
    (recognizer.declarations count).1.tokens = recognizer.tokens :=
  declarations_keep (fun recognizer ↦ (run_follows _ recognizer _).tokens) recognizer count

/-! ## Depth -/

/-- Moving on stays as deep. -/
@[simp] theorem depth_advance (recognizer : Recognizer) :
    recognizer.advance.depth = recognizer.depth := by
  unfold advance
  split <;> rfl

/-- The goals of an agenda close the levels of its parts. -/
theorem open_levels_append (first second : List Goal) :
    openLevels (first ++ second) = openLevels first + openLevels second :=
  List.count_append

/-- A goal that closes a level closes one more. -/
theorem open_levels_surface (agenda : List Goal) :
    openLevels (.surface :: agenda) = openLevels agenda + 1 :=
  List.count_cons_self

/-- Any other goal closes none. -/
theorem open_levels_of_ne (hgoal : goal ≠ .surface) (agenda : List Goal) :
    openLevels (goal :: agenda) = openLevels agenda :=
  List.count_cons_of_ne hgoal

/-- A step keeps the depth below the levels that are open. -/
theorem step_depth {base : Nat} (hdepth : recognizer.depth = base + openLevels (goal :: rest))
    (h : recognizer.step goal rest = .ok (next, agenda)) :
    next.depth = base + openLevels agenda := by
  by_cases hgoal : goal = .surface
  · subst hgoal
    obtain ⟨rfl, rfl⟩ := Prod.mk.inj (Except.ok.inj h)
    rw [open_levels_surface] at hdepth
    simp only [ascend]
    omega
  rw [open_levels_of_ne hgoal] at hdepth
  obtain ⟨hnone, hstays⟩ := move_surface recognizer.tables recognizer.kind hgoal
  rcases step_ok h with ⟨hmove, rfl, rfl⟩ | ⟨goals, hmove, rfl, rfl⟩ |
    ⟨goals, hmove, -, rfl, rfl⟩ | ⟨hmove, -, -⟩
  · rw [depth_advance, hdepth]
  · rw [hmove] at hnone
    have hlevels : openLevels goals = 0 := List.count_eq_zero.mpr hnone
    rw [open_levels_append, hlevels, Nat.zero_add, hdepth]
  · rw [hmove] at hnone
    have hlevels : openLevels goals = 0 := List.count_eq_zero.mpr hnone
    rw [open_levels_append, hlevels, Nat.zero_add, open_levels_surface]
    simp only [descend]
    omega
  · exact absurd hmove hstays

/-- A step goes no deeper than the limit on nesting. -/
theorem step_depth_le (h : recognizer.step goal rest = .ok (next, agenda))
    (hdepth : recognizer.depth ≤ nestingLimit) : next.depth ≤ nestingLimit := by
  rcases step_ok h with ⟨-, rfl, -⟩ | ⟨_, -, rfl, -⟩ | ⟨_, -, hlt, rfl, -⟩ | ⟨-, rfl, -⟩
  · rwa [depth_advance]
  · exact hdepth
  · exact hlt
  · exact Nat.le_trans (Nat.sub_le _ 1) hdepth

/-- A run closes the levels that its agenda has open, however it ends. -/
theorem run_depth {base : Nat} (moves : Nat) (recognizer : Recognizer) (agenda : List Goal)
    (hdepth : recognizer.depth = base + openLevels agenda) :
    (run moves recognizer agenda).1.depth = base := by
  fun_induction run moves recognizer agenda with
  | case1 moves recognizer => exact hdepth
  | case2 recognizer goal rest =>
      simp only [ascend]
      omega
  | case3 moves recognizer goal rest next agenda hstep ih => exact ih (step_depth hdepth hstep)
  | case4 moves recognizer goal rest error hstep =>
      -- The goal that failed closes no level, so the rest of the agenda closes all of them.
      have hgoal : goal ≠ .surface := by
        rintro rfl
        cases hstep
      rw [open_levels_of_ne hgoal] at hdepth
      simp only [ascend]
      omega

/-- Recognizing a rule ends as deep as it starts. -/
theorem recognize_rule_depth (recognizer : Recognizer) (rule : Rule) :
    (recognizer.recognize [.rule rule]).1.depth = recognizer.depth :=
  run_depth _ recognizer _ rfl

/-- Recognizing declarations ends as deep as it starts. -/
theorem declarations_depth (recognizer : Recognizer) (count : Nat) :
    (recognizer.declarations count).1.depth = recognizer.depth :=
  declarations_keep (fun recognizer ↦ recognize_rule_depth recognizer .declaration) recognizer count

/-! ## Turns -/

/-- A turn of a run: the first goal of the agenda is worked on. -/
inductive Turn : Recognizer × List Goal → Recognizer × List Goal → Prop where
  | work {recognizer : Recognizer} {goal : Goal} {rest : List Goal}
      {outcome : Recognizer × List Goal} (h : recognizer.step goal rest = .ok outcome) :
      Turn (recognizer, goal :: rest) outcome

variable {first second : Recognizer × List Goal}

/-- Turns never lead back, and never deeper than the limit on nesting. -/
theorem turns_follow (h : Relation.ReflTransGen Turn first second) :
    Follows first.1 second.1 ∧
      (first.1.depth ≤ nestingLimit → second.1.depth ≤ nestingLimit) := by
  induction h with
  | refl => exact ⟨Follows.stay first.1 first.1.depth, id⟩
  | tail _ hturn ih =>
      obtain ⟨hfollows, hdepth⟩ := ih
      cases hturn with
      | work hstep =>
          exact ⟨hfollows.trans (step_follows hstep), fun hle ↦ step_depth_le hstep (hdepth hle)⟩

/-- A run that ends goes on from every state it goes through to the same end. -/
theorem run_of_turns {moves : Nat} (h : Relation.ReflTransGen Turn first second)
    (hends : (run moves first.1 first.2).2 ≠ .stalled) :
    ∃ fewer, run moves first.1 first.2 = run fewer second.1 second.2 := by
  induction h using Relation.ReflTransGen.head_induction_on generalizing moves with
  | refl => exact ⟨moves, rfl⟩
  | head hturn _ ih =>
      cases hturn with
      | work hstep =>
          cases moves with
          | zero => exact absurd rfl hends
          | succ moves =>
              simp only [run, hstep] at hends ⊢
              exact ih hends

/-- An accepted run has worked off its agenda in turns. -/
theorem turns_of_accepted {moves : Nat}
    (h : run moves recognizer agenda = (next, .accepted ())) :
    Relation.ReflTransGen Turn (recognizer, agenda) (next, []) := by
  fun_induction run moves recognizer agenda with
  | case1 moves recognizer =>
      cases h
      exact .refl
  | case2 recognizer goal rest => cases h
  | case3 moves recognizer goal rest middle agenda hstep ih => exact .head (.work hstep) (ih h)
  | case4 moves recognizer goal rest error hstep => cases h

/-- A declaration is accepted in front of a token, and leaves the next recognizer. -/
def Declares (recognizer next : Recognizer) : Prop :=
  recognizer.hasTokens = true ∧ recognizer.recognize [.rule .declaration] = (next, .accepted ())

/-- The recognizers that a list of declarations goes through: those between the declarations, and
those in the turns of a declaration. -/
inductive Visits (recognizer : Recognizer) : Recognizer → Prop where
  | between {state : Recognizer} (h : Relation.ReflTransGen Declares recognizer state) :
      Visits recognizer state
  | within {start state : Recognizer} {agenda : List Goal}
      (h : Relation.ReflTransGen Declares recognizer start) (hmore : start.hasTokens = true)
      (hturns : Relation.ReflTransGen Turn (start, [.rule .declaration]) (state, agenda)) :
      Visits recognizer state

/-! ## Errors -/

/-- The error of a step is about the current token. -/
theorem step_rejected {error : Diagnostic} (h : recognizer.step goal rest = .error error) :
    ∃ reason, error = recognizer.unexpected reason := by
  rcases step_error h with ⟨reason, -, rfl⟩ | ⟨_, -, -, rfl⟩
  · exact ⟨reason, rfl⟩
  · exact ⟨_, rfl⟩

/-- A rejected run has come in turns to the step that found the error, and has closed the levels
behind it. -/
theorem turns_of_rejected {moves : Nat} {error : Diagnostic}
    (h : run moves recognizer agenda = (next, .rejected error)) :
    ∃ last goal rest, Relation.ReflTransGen Turn (recognizer, agenda) (last, goal :: rest) ∧
      last.step goal rest = .error error ∧ next = last.ascend (openLevels rest) := by
  fun_induction run moves recognizer agenda with
  | case1 moves recognizer => cases h
  | case2 recognizer goal rest => cases h
  | case3 moves recognizer goal rest middle agenda hstep ih =>
      obtain ⟨last, failed, left, hturns, herror⟩ := ih h
      exact ⟨last, failed, left, .head (.work hstep) hturns, herror⟩
  | case4 moves recognizer goal rest found hstep =>
      cases h
      exact ⟨recognizer, goal, rest, .refl, hstep, rfl⟩

/-- The error of a run is about the token at which the run stopped. -/
theorem run_rejected {moves : Nat} {error : Diagnostic}
    (h : run moves recognizer agenda = (next, .rejected error)) :
    ∃ reason, error = next.unexpected reason := by
  -- Closing levels leaves the current token as it is, and so what can be said of it.
  obtain ⟨last, goal, rest, -, hstep, rfl⟩ := turns_of_rejected h
  obtain ⟨reason, hreason⟩ := step_rejected hstep
  exact ⟨reason, hreason⟩

/-- The error of a list of declarations is that of the declaration at which they stopped, behind
those that were accepted. -/
theorem declaration_of_rejected {count : Nat} {error : Diagnostic}
    (h : recognizer.declarations count = (next, .rejected error)) :
    ∃ start, Relation.ReflTransGen Declares recognizer start ∧
      start.recognize [.rule .declaration] = (next, .rejected error) := by
  fun_induction declarations recognizer count with
  | case1 recognizer count hmore middle hrun hshort ih =>
      obtain ⟨start, hdeclares, hrejected⟩ := ih h
      exact ⟨start, .head ⟨hmore, hrun⟩ hdeclares, hrejected⟩
  | case2 recognizer count hmore middle hrun hlong => cases h
  | case3 recognizer count hmore middle found hrun =>
      cases h
      exact ⟨recognizer, .refl, hrun⟩
  | case4 recognizer count hmore middle hrun => cases h
  | case5 recognizer count hnone => cases h

/-- The error of a list of declarations is about the token at which they stopped. -/
theorem declarations_rejected {count : Nat} {error : Diagnostic}
    (h : recognizer.declarations count = (next, .rejected error)) :
    ∃ reason, error = next.unexpected reason := by
  obtain ⟨start, -, hrun⟩ := declaration_of_rejected h
  exact run_rejected hrun

/-- Declarations are accepted up to an end of input only. -/
theorem declarations_accepted {count total : Nat}
    (h : recognizer.declarations count = (next, .accepted total)) : next.kind = .endOfInput := by
  fun_induction declarations recognizer count with
  | case1 recognizer count hmore middle hrun hshort ih => exact ih h
  | case2 recognizer count hmore middle hrun hlong => cases h
  | case3 recognizer count hmore middle found hrun => cases h
  | case4 recognizer count hmore middle hrun => cases h
  | case5 recognizer count hnone =>
      cases h
      simpa [hasTokens] using hnone

end Recognizer

/-- A parse has the given tokens and the end of input. -/
theorem parse_tokens (tokens : List Token) (file : String) :
    (parse tokens file).1.tokens = tokens ++ [Recognizer.endToken tokens file] := by
  rw [parse, Recognizer.declarations_tokens]
  exact Recognizer.tokens_start tokens file

end Decaf
