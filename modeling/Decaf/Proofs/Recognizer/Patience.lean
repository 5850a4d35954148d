import Decaf.Proofs.Grammar.Standard
import Decaf.Proofs.Recognizer.Steps

/-!
# Runs with the standard tables end

The effort of a state bounds the moves left to it: sixteen for every token ahead, the rank of the
first goal, and one for every goal. Between two tokens a run first drops goals that may be empty,
which costs one move each, and then goes down the ranks from a goal that needs a token to that
token, so every move lowers the effort (`step_lowers`). No goal takes the end of input, which
would be a move without progress; `Goal.mayTakeEnd` marks the goals that would, and `Guarded` says
that they wait for nothing but a token at hand. `recognize_ne_stalled` concludes that the moves
granted by `patience` suffice.
-/

namespace Decaf

/-- The rules that take the current token whatever it is. -/
def Rule.mayTakeEnd : Rule → Bool
  | .ifStatement | .whileStatement | .forStatement | .returnStatement | .jumpStatement
  | .printStatement | .atom | .signed | .keywordType => true
  | .declaration | .statement | .variableStatement | .block | .grouping | .arguments => false

/-- The graded rules that take the current token whatever it is. -/
def GradedRule.mayTakeEnd : GradedRule → Bool
  | .binary | .assignment => true
  | .expression | .call | .index | .member | .type | .arrayType => false

/-- How far a rule is from its first token: more than its first goal, by one for every goal. -/
def Rule.rank : Rule → Nat
  | .atom | .keywordType => 1
  | .signed | .jumpStatement => 2
  | .grouping | .block | .returnStatement => 3
  | .whileStatement | .printStatement => 5
  | .ifStatement => 6
  | .variableStatement | .declaration => 7
  | .forStatement => 9
  | .statement => 12
  | .arguments => 16

/-- How far a graded rule is from its first token. -/
def GradedRule.rank : GradedRule → Nat
  | .binary | .assignment | .member => 2
  | .call | .index | .arrayType => 3
  | .type => 4
  | .expression => 7

namespace Goal

/-- The goals that would take the end of input. -/
def mayTakeEnd : Goal → Bool
  | token kind _ => kind == .endOfInput
  | anyToken => true
  | rule plain => plain.mayTakeEnd
  | graded plain _ => plain.mayTakeEnd
  | _ => false

/-- How far a goal is from its first token. The goals that may turn out empty share the highest
rank, so that dropping one never brings up a goal of a higher rank. -/
def rank : Goal → Nat
  | token _ _ | anyToken => 0
  | variableTail => 1
  | typeHead => 2
  | declarationTail | operand => 4
  | statementBody => 10
  | rule plain => plain.rank
  | graded plain _ => plain.rank
  | surface | parameters | moreParameters | statements | elseBranch | expressionUnless _
  | moreArguments | operators _ | typeSuffixes _ | arraySize => 16

/-- No rank exceeds sixteen. -/
theorem rank_le (goal : Goal) : goal.rank ≤ 16 := by
  cases goal with
  | rule plain => cases plain <;> decide
  | graded plain power => cases plain <;> simp [rank, GradedRule.rank]
  | _ => simp [rank]

/-- The goals that a goal may give way to in front of a token: none if it has the highest rank, or
else goals of less rank, none of which would take the end of input. -/
def Admits (goal : Goal) (kind : TokenKind) : List Goal → Prop
  | [] => goal.rank = 16
  | first :: rest =>
    first.rank + rest.length < goal.rank ∧ (first.mayTakeEnd = true → kind ≠ .endOfInput) ∧
      ∀ next ∈ rest, next.mayTakeEnd = false

/-- Goals that look before they take anything may stand in front of every token. -/
theorem admits_of_false {goal first : Goal} {rest : List Goal} (kind : TokenKind)
    (hrank : first.rank + rest.length < goal.rank) (hfirst : first.mayTakeEnd = false)
    (hrest : ∀ next ∈ rest, next.mayTakeEnd = false) : goal.Admits kind (first :: rest) := by
  refine ⟨hrank, fun htake ↦ ?_, hrest⟩
  rw [hfirst] at htake
  cases htake

end Goal

/-- A move of a goal that brings its first token closer. -/
def Move.Lowers (goal : Goal) (kind : TokenKind) : Move → Prop
  | .take => kind ≠ .endOfInput
  | .expand goals => goal.Admits kind goals
  | .nest goals => goal.Admits kind (goals ++ [.surface])
  | .surface => goal.Admits kind []
  | .refuse _ => True

/-- The rules that start a statement, and where they stand. -/
theorem statement_rule_bounds {kind : TokenKind} {rule : Rule}
    (h : statementRule? kind = some rule) : rule.rank < 10 ∧ kind ≠ .endOfInput := by
  cases kind <;> cases h <;> decide

/-- The rules that start an operand, and where they stand. -/
theorem operand_rule_bounds {kind : TokenKind} {rule : Rule}
    (h : operandRule? kind = some rule) : rule.rank < 4 ∧ kind ≠ .endOfInput := by
  cases kind <;> cases h <;> decide

/-- The rules that go on behind an operand, and where they stand. -/
theorem operator_rule_bounds {kind : TokenKind} {rule : GradedRule}
    (h : operatorRule? kind = some rule) : rule.rank < 4 ∧ kind ≠ .endOfInput := by
  cases kind <;> cases h <;> decide

/-- The rules that start a type, and where they stand. -/
theorem type_head_rule_bounds {kind : TokenKind} {rule : Rule}
    (h : typeHeadRule? kind = some rule) : rule.rank < 2 ∧ kind ≠ .endOfInput := by
  cases kind <;> cases h <;> decide

/-- The rules that go on behind a type, and where they stand. -/
theorem type_suffix_rule_bounds {kind : TokenKind} {rule : GradedRule}
    (h : typeSuffixRule? kind = some rule) : rule.rank < 4 ∧ kind ≠ .endOfInput := by
  cases kind <;> cases h
  decide

/-- Plain rules bring their first token closer. -/
theorem rule_move_lowers {kind : TokenKind} {rule : Rule}
    (h : rule.mayTakeEnd = true → kind ≠ .endOfInput) :
    (rule.move kind).Lowers (.rule rule) kind := by
  cases rule with
  | declaration =>
      simp only [Rule.move]
      split
      · exact Goal.admits_of_false kind (by decide) rfl (by decide)
      · trivial
  | arguments =>
      simp only [Rule.move]
      split
      · rfl
      · exact Goal.admits_of_false kind (by decide) rfl (by decide)
  | statement | variableStatement | block | grouping =>
      exact Goal.admits_of_false kind (by decide) rfl (by decide)
  | _ => exact ⟨by decide, fun _ ↦ h rfl, by decide⟩

/-- Graded rules bring their first token closer. -/
theorem graded_move_lowers {kind : TokenKind} {rule : GradedRule} {power : Power}
    (h : rule.mayTakeEnd = true → kind ≠ .endOfInput) :
    (rule.move power).Lowers (.graded rule power) kind := by
  cases rule with
  | binary =>
      exact ⟨by simp [Goal.rank, GradedRule.rank], fun _ ↦ h rfl,
        by simp [Goal.mayTakeEnd, GradedRule.mayTakeEnd]⟩
  | assignment => exact ⟨by simp [Goal.rank, GradedRule.rank], fun _ ↦ h rfl, by decide⟩
  | expression | type =>
      exact Goal.admits_of_false kind (by simp [Goal.rank, GradedRule.rank]) rfl
        (by simp [Goal.mayTakeEnd])
  | call | index | member | arrayType =>
      exact Goal.admits_of_false kind (by simp [Goal.rank, Goal.expect, GradedRule.rank]) rfl
        (by decide)

/-- A table entry brings its first token closer when its rule stands below the goal. -/
theorem enter_lowers {goal : Goal} {kind : TokenKind} {entry : Option Rule} {reason : String}
    (h : ∀ rule, entry = some rule → rule.rank < goal.rank ∧ kind ≠ .endOfInput) :
    (Tables.enter entry reason).Lowers goal kind := by
  cases entry with
  | none => trivial
  | some rule =>
      obtain ⟨hrank, hkind⟩ := h rule rfl
      exact ⟨hrank, fun _ ↦ hkind, by simp⟩

/-- A continuation brings its first token closer when its rule stands below a goal that may be
empty. -/
theorem continue_at_lowers {goal : Goal} {kind : TokenKind} {entry : Option GradedRule}
    {binding : Option Power} {power : Power} (hgoal : goal.rank = 16)
    (hend : goal.mayTakeEnd = false)
    (h : ∀ rule, entry = some rule → rule.rank < 4 ∧ kind ≠ .endOfInput) :
    (Tables.continueAt entry binding power goal).Lowers goal kind := by
  unfold Tables.continueAt
  split
  · exact hgoal
  · cases entry with
    | none => trivial
    | some rule =>
        obtain ⟨hrank, hkind⟩ := h rule rfl
        refine ⟨?_, fun _ ↦ hkind, by simpa using hend⟩
        have hrule : (Goal.graded rule (binding.getD .lowest)).rank = rule.rank := rfl
        rw [hrule, hgoal, List.length_singleton]
        omega

/-- Every move of the standard tables brings a token closer, unless a goal that would take the end
of input stands in front of it. -/
theorem move_lowers {kind : TokenKind} {goal : Goal}
    (h : goal.mayTakeEnd = true → kind ≠ .endOfInput) :
    (Tables.standard.move kind goal).Lowers goal kind := by
  cases goal with
  | token expected reason =>
      simp only [Tables.move]
      split
      · next heq =>
        intro hkind
        exact h (by simp [Goal.mayTakeEnd, ← heq, hkind]) hkind
      · trivial
  | anyToken => exact h rfl
  | surface => rfl
  | rule rule => exact rule_move_lowers h
  | graded rule power => exact graded_move_lowers h
  | operand =>
      exact enter_lowers fun rule hrule ↦ operand_rule_bounds (by simpa [standard_eq] using hrule)
  | typeHead =>
      exact enter_lowers fun rule hrule ↦ type_head_rule_bounds (by simpa [standard_eq] using hrule)
  | operators power =>
      exact continue_at_lowers rfl rfl fun rule hrule ↦
        operator_rule_bounds (by simpa [standard_eq] using hrule)
  | typeSuffixes power =>
      exact continue_at_lowers rfl rfl fun rule hrule ↦
        type_suffix_rule_bounds (by simpa [standard_eq] using hrule)
  | statementBody =>
      simp only [Tables.move]
      split
      · next rule hrule =>
        obtain ⟨hrank, hkind⟩ := statement_rule_bounds (by simpa [standard_eq] using hrule)
        exact ⟨hrank, fun _ ↦ hkind, by simp⟩
      · exact Goal.admits_of_false kind (by decide) rfl (by decide)
  | variableTail =>
      simp only [Tables.move]
      split
      · trivial
      · exact Goal.admits_of_false kind (by decide) rfl (by decide)
  | declarationTail =>
      simp only [Tables.move]
      split <;> exact Goal.admits_of_false kind (by decide) rfl (by decide)
  | parameters | statements =>
      simp only [Tables.move]
      split
      · rfl
      · exact Goal.admits_of_false kind (by decide) rfl (by decide)
  | expressionUnless stop =>
      simp only [Tables.move]
      split
      · rfl
      · exact Goal.admits_of_false kind (by simp [Goal.rank, Goal.expression, GradedRule.rank]) rfl
          (by decide)
  | moreParameters | elseBranch | moreArguments | arraySize =>
      simp only [Tables.move]
      split
      · next hkind => exact ⟨by decide, fun _ ↦ by simp [hkind], by decide⟩
      · rfl

namespace Recognizer

/-- The rank of the goal that is next, and none when nothing is left to do. -/
def firstRank : List Goal → Nat
  | [] => 0
  | goal :: _ => goal.rank

/-- The rank of the goal that is next is that of the first goal. -/
@[simp] theorem first_rank_cons (goal : Goal) (rest : List Goal) :
    firstRank (goal :: rest) = goal.rank := rfl

/-- A bound on the moves left to a recognizer with an agenda. -/
def effort (recognizer : Recognizer) (agenda : List Goal) : Nat :=
  16 * recognizer.after.length + firstRank agenda + agenda.length

/-- Of the goals of an agenda only the first may take whatever stands there, and not in front of
the end of input. -/
def Guarded (kind : TokenKind) : List Goal → Prop
  | [] => True
  | goal :: rest =>
    (goal.mayTakeEnd = true → kind ≠ .endOfInput) ∧ ∀ next ∈ rest, next.mayTakeEnd = false

/-- Goals that look before they take anything are guarded in front of every token. -/
theorem guarded_of_false {agenda : List Goal} (kind : TokenKind)
    (h : ∀ goal ∈ agenda, goal.mayTakeEnd = false) : Guarded kind agenda := by
  cases agenda with
  | nil => trivial
  | cons goal rest =>
      refine ⟨fun htake ↦ ?_, fun next hnext ↦ h next (List.mem_cons_of_mem goal hnext)⟩
      rw [h goal List.mem_cons_self] at htake
      cases htake

/-- The next rank is at most the highest. -/
theorem first_rank_le (agenda : List Goal) : firstRank agenda ≤ 16 := by
  cases agenda with
  | nil => exact Nat.zero_le _
  | cons goal rest => exact goal.rank_le

/-- Giving way to admitted goals lowers the rank and the length of an agenda together. -/
theorem first_rank_append_lt {goal : Goal} {kind : TokenKind} {goals : List Goal}
    (h : goal.Admits kind goals) (rest : List Goal) :
    firstRank (goals ++ rest) + (goals ++ rest).length < goal.rank + (goal :: rest).length := by
  cases goals with
  | nil =>
      have hrank : goal.rank = 16 := h
      have hle := first_rank_le rest
      simp only [List.nil_append, List.length_cons]
      omega
  | cons first goals =>
      have hrank := h.1
      simp only [List.cons_append, first_rank_cons, List.length_cons, List.length_append]
      omega

/-- Giving way to admitted goals keeps an agenda guarded. -/
theorem guarded_append {goal : Goal} {kind : TokenKind} {goals rest : List Goal}
    (h : goal.Admits kind goals) (hrest : ∀ next ∈ rest, next.mayTakeEnd = false) :
    Guarded kind (goals ++ rest) := by
  cases goals with
  | nil => exact guarded_of_false kind hrest
  | cons first goals =>
      obtain ⟨-, hfirst, hgoals⟩ := h
      refine ⟨hfirst, fun next hnext ↦ ?_⟩
      rcases List.mem_append.mp hnext with hnext | hnext
      · exact hgoals next hnext
      · exact hrest next hnext

/-- What stays the same and what gets less with every step of the standard tables: the agenda
stays guarded, the input still ends, and less effort is left. -/
theorem step_lowers {recognizer next : Recognizer} {goal : Goal} {rest agenda : List Goal}
    (htables : recognizer.tables = .standard) (hends : recognizer.EndsInput)
    (hguarded : Guarded recognizer.kind (goal :: rest))
    (h : recognizer.step goal rest = .ok (next, agenda)) :
    next.tables = .standard ∧ next.EndsInput ∧ Guarded next.kind agenda ∧
      next.effort agenda < recognizer.effort (goal :: rest) := by
  obtain ⟨hgoal, hrest⟩ := hguarded
  have hlowers := move_lowers hgoal
  rw [← htables] at hlowers
  rcases step_ok h with ⟨hmove, rfl, rfl⟩ | ⟨goals, hmove, rfl, rfl⟩ |
    ⟨goals, hmove, -, rfl, rfl⟩ | ⟨hmove, rfl, rfl⟩
  · rw [hmove] at hlowers
    refine ⟨by simpa using htables, hends.advance hlowers, guarded_of_false _ hrest, ?_⟩
    have hafter := hends.after_advance hlowers
    have hle := first_rank_le agenda
    simp only [effort, first_rank_cons, List.length_cons]
    omega
  · rw [hmove] at hlowers
    have hlt := first_rank_append_lt hlowers rest
    refine ⟨htables, hends, guarded_append hlowers hrest, ?_⟩
    simp only [effort, first_rank_cons]
    omega
  · rw [hmove] at hlowers
    have hlt := first_rank_append_lt hlowers rest
    have hguard := guarded_append hlowers hrest
    rw [List.append_assoc, List.singleton_append] at hlt hguard
    refine ⟨htables, hends, hguard, ?_⟩
    simp only [effort, first_rank_cons, descend]
    omega
  · rw [hmove] at hlowers
    have hrank : goal.rank = 16 := hlowers
    have hle := first_rank_le agenda
    refine ⟨htables, hends, guarded_of_false _ hrest, ?_⟩
    simp only [effort, first_rank_cons, ascend, List.length_cons]
    omega

/-- A run that may take as many moves as its effort does not stall. -/
theorem run_ne_stalled {moves : Nat} {recognizer : Recognizer} {agenda : List Goal}
    (htables : recognizer.tables = .standard) (hends : recognizer.EndsInput)
    (hguarded : Guarded recognizer.kind agenda) (hmoves : recognizer.effort agenda ≤ moves) :
    (run moves recognizer agenda).2 ≠ .stalled := by
  induction moves generalizing recognizer agenda with
  | zero =>
      cases agenda with
      | nil => simp [run]
      | cons goal rest => simp [effort] at hmoves
  | succ moves ih =>
      cases agenda with
      | nil => simp [run]
      | cons goal rest =>
          rw [run]
          split
          · next next agenda hstep =>
            obtain ⟨htables, hends, hguarded, hlt⟩ := step_lowers htables hends hguarded hstep
            exact ih htables hends hguarded (by omega)
          · simp

/-- The moves granted for an agenda suffice. -/
theorem recognize_ne_stalled {recognizer : Recognizer} {agenda : List Goal}
    (htables : recognizer.tables = .standard) (hends : recognizer.EndsInput)
    (hguarded : Guarded recognizer.kind agenda) :
    (recognizer.recognize agenda).2 ≠ .stalled := by
  have hmoves : recognizer.effort agenda ≤ recognizer.patience agenda := by
    have hle := first_rank_le agenda
    simp only [effort, patience]
    omega
  exact run_ne_stalled htables hends hguarded hmoves

end Recognizer

end Decaf
