import Decaf.Proofs.Recognizer.Progress
import Decaf.Proofs.Recognizer.Reasons

/-!
# Levels cost tokens

How many tokens stand in front of a goal for every level that is open there. `Goal.margin` is what a
goal has more of them than levels: four in front of an expression, which a function cannot hold
before its body starts. A move hands the margin on, because a level that is opened without a token
lies between goals whose margins differ by one (`move_spaces`). So the margins hold in a whole run
(`Spaced.turns`), and the limit on nesting is not met before there are as many tokens.
-/

namespace Decaf

/-- The tokens in front of a plain rule beyond the levels that are open there. -/
@[simp] def Rule.margin : Rule → Nat
  | .statement => 5
  | .variableStatement | .block | .ifStatement | .whileStatement | .forStatement
  | .returnStatement | .jumpStatement | .printStatement | .arguments => 4
  | .atom | .signed | .grouping => 3
  | .declaration | .keywordType => 0

/-- The tokens in front of a graded rule beyond the levels that are open there. -/
@[simp] def GradedRule.margin : GradedRule → Nat
  | .expression => 4
  | .binary | .assignment | .call | .index | .member => 3
  | .type | .arrayType => 0

namespace Goal

/-- The tokens in front of a goal beyond the levels that are open there. -/
@[simp] def margin : Goal → Nat
  | .rule plain => plain.margin
  | .graded plain _ => plain.margin
  | .statements => 5
  | .statementBody | .elseBranch | .expressionUnless _ | .moreArguments => 4
  | .operand | .operators _ => 3
  | .declarationTail => 2
  | .token _ _ | .anyToken | .surface | .parameters | .moreParameters | .variableTail | .typeHead
  | .typeSuffixes _ | .arraySize => 0

/-- The fewest tokens that a goal takes, as far as margins need them. -/
@[simp] def least : Goal → Nat
  | .token _ _ | .anyToken | .typeHead | .graded .type _ | .rule .keywordType => 1
  | _ => 0

/-- The levels that a goal closes. -/
@[simp] def closes : Goal → Nat
  | .surface => 1
  | _ => 0

end Goal

/-- The fewest tokens that goals take, as far as margins need them. -/
@[simp] def leastOf : List Goal → Nat
  | [] => 0
  | goal :: rest => goal.least + leastOf rest

/-- In front of every goal of an agenda there are its margin of tokens more than levels open, if the
first stands at the given depth and index. -/
def Covered : Nat → Nat → List Goal → Prop
  | _, _, [] => True
  | depth, index, goal :: rest =>
    goal.margin + depth ≤ index ∧ Covered (depth - goal.closes) (index + goal.least) rest

/-- Goals that close no level and keep to a margin, each with the tokens of those before it. -/
@[simp] def Within : Nat → List Goal → Prop
  | _, [] => True
  | margin, goal :: rest =>
    goal.closes = 0 ∧ goal.margin ≤ margin ∧ Within (margin + goal.least) rest

/-- A move that hands the margin of its goal on. -/
@[simp] def Move.Spaces (goal : Goal) : Move → Prop
  | .take => goal.closes = 0 ∧ goal.least ≤ 1
  | .expand goals => goal.closes = 0 ∧ goal.least ≤ leastOf goals ∧ Within goal.margin goals
  | .nest goals =>
    goal.closes = 0 ∧ goal.least = 0 ∧ 4 ≤ goal.margin ∧ Within (goal.margin - 1) goals
  | .surface => goal = .surface
  | .refuse _ => True

section

variable {depth index more margin : Nat} {goal : Goal} {goals rest : List Goal} {kind : TokenKind}

/-- An agenda that is covered stays covered where more tokens stand in front of it. -/
theorem Covered.mono (h : Covered depth index goals) (hle : index ≤ more) :
    Covered depth more goals := by
  induction goals generalizing depth index more with
  | nil => trivial
  | cons goal rest ih =>
      exact ⟨Nat.le_trans h.1 hle, ih h.2 (Nat.add_le_add_right hle _)⟩

/-- Goals within a margin are covered in front of an agenda that is. -/
theorem Covered.prepend (hwithin : Within margin goals) (hmargin : margin + depth ≤ index)
    (hrest : Covered depth (index + leastOf goals) rest) : Covered depth index (goals ++ rest) := by
  induction goals generalizing margin index with
  | nil => exact hrest
  | cons goal goals ih =>
      obtain ⟨hcloses, hle, hgoals⟩ := hwithin
      refine ⟨by omega, ?_⟩
      rw [hcloses, Nat.sub_zero]
      refine ih hgoals (by omega) ?_
      rwa [leastOf, ← Nat.add_assoc] at hrest

/-! ## The standard tables keep to the margins -/

/-- Plain rules hand their margins on. -/
theorem rule_move_spaces (kind : TokenKind) (rule : Rule) :
    (rule.move kind).Spaces (.rule rule) := by
  cases rule with
  | declaration | arguments =>
      rw [Rule.move]
      split <;> simp [Goal.type, Goal.expression]
  | _ => simp [Rule.move, Goal.type, Goal.expression, Goal.expect]

/-- Graded rules hand their margins on. -/
theorem graded_move_spaces (rule : GradedRule) (power : Power) :
    (rule.move power).Spaces (.graded rule power) := by
  cases rule <;> simp [GradedRule.move, Goal.expression, Goal.expect]

/-- The rules for statements keep to the margin of what a statement consists of. -/
theorem statement_rule_margin {rule : Rule} (h : statementRule? kind = some rule) :
    rule.margin ≤ 4 := by
  cases kind <;> cases h <;> decide

/-- The rules for operands keep to the margin of an operand. -/
theorem operand_rule_margin {rule : Rule} (h : operandRule? kind = some rule) :
    rule.margin ≤ 3 := by
  cases kind <;> cases h <;> decide

/-- The rules for operators keep to the margin of operators. -/
theorem operator_rule_margin {rule : GradedRule} (h : operatorRule? kind = some rule) :
    rule.margin ≤ 3 := by
  cases kind <;> cases h <;> decide

/-- Only keywords start a type. -/
theorem type_head_rule_eq {rule : Rule} (h : typeHeadRule? kind = some rule) :
    rule = .keywordType := by
  cases kind <;> cases h <;> rfl

/-- Only an array type goes on behind a type. -/
theorem type_suffix_rule_eq {rule : GradedRule} (h : typeSuffixRule? kind = some rule) :
    rule = .arrayType := by
  cases kind <;> cases h
  rfl

/-- Every move of the standard tables hands the margin of its goal on. -/
theorem move_spaces (kind : TokenKind) (goal : Goal) :
    (Tables.standard.move kind goal).Spaces goal := by
  rw [standard_eq]
  cases goal with
  | token expected reason =>
      rw [Tables.move]
      split <;> simp
  | anyToken => simp [Tables.move]
  | surface => simp [Tables.move]
  | rule rule => exact rule_move_spaces kind rule
  | graded rule power => exact graded_move_spaces rule power
  | operand =>
      simp only [Tables.move]
      cases hrule : operandRule? kind with
      | none => trivial
      | some rule => simpa [Tables.enter] using operand_rule_margin hrule
  | typeHead =>
      simp only [Tables.move]
      cases hrule : typeHeadRule? kind with
      | none => trivial
      | some rule =>
          obtain rfl := type_head_rule_eq hrule
          simp [Tables.enter]
  | statementBody =>
      simp only [Tables.move]
      cases hrule : statementRule? kind with
      | none => simp [Goal.expression, Goal.expect]
      | some rule => simpa using statement_rule_margin hrule
  | operators power =>
      simp only [Tables.move, Tables.continueAt]
      split
      · simp
      · cases hrule : operatorRule? kind with
        | none => trivial
        | some rule => simpa using operator_rule_margin hrule
  | typeSuffixes power =>
      simp only [Tables.move, Tables.continueAt]
      split
      · simp
      · cases hrule : typeSuffixRule? kind with
        | none => trivial
        | some rule =>
            obtain rfl := type_suffix_rule_eq hrule
            simp
  | _ =>
      simp only [Tables.move]
      split <;> simp [Goal.type, Goal.expression, Goal.expect]

end

/-! ## The margins hold in a run -/

namespace Recognizer

variable {recognizer next : Recognizer} {agenda left : List Goal} {error : Diagnostic}

/-- A steady state of a run whose agenda is covered. -/
structure Spaced (recognizer : Recognizer) (agenda : List Goal) : Prop
    extends Steady recognizer agenda where
  covered : Covered recognizer.depth recognizer.index agenda

/-- A turn leaves the agenda covered. -/
theorem Spaced.turn (h : Spaced recognizer agenda)
    (hturn : Turn (recognizer, agenda) (next, left)) : Spaced next left := by
  refine ⟨(h.toSteady.turn hturn).1, ?_⟩
  cases hturn with
  | @work _ goal rest _ hstep =>
      obtain ⟨hmargin, hrest⟩ := h.covered
      have hspaces := move_spaces recognizer.kind goal
      have hlowers := move_lowers h.guarded.1
      rw [← h.tables] at hspaces hlowers
      rcases step_ok hstep with ⟨hmove, rfl, rfl⟩ | ⟨goals, hmove, rfl, rfl⟩ |
        ⟨goals, hmove, -, rfl, rfl⟩ | ⟨hmove, rfl, rfl⟩
      · rw [hmove] at hspaces hlowers
        obtain ⟨hcloses, hleast⟩ := hspaces
        rw [hcloses, Nat.sub_zero] at hrest
        rw [depth_advance, h.ends_input.index_advance hlowers]
        exact hrest.mono (Nat.add_le_add_left hleast _)
      · rw [hmove] at hspaces
        obtain ⟨hcloses, hleast, hwithin⟩ := hspaces
        rw [hcloses, Nat.sub_zero] at hrest
        exact Covered.prepend hwithin hmargin (hrest.mono (Nat.add_le_add_left hleast _))
      · rw [hmove] at hspaces
        obtain ⟨hcloses, hleast, hroom, hwithin⟩ := hspaces
        rw [hcloses, hleast, Nat.sub_zero, Nat.add_zero] at hrest
        have hdepth : recognizer.descend.depth = recognizer.depth + 1 := rfl
        have hindex : recognizer.descend.index = recognizer.index := rfl
        rw [hdepth, hindex]
        refine Covered.prepend hwithin (by omega) ⟨?_, ?_⟩
        · show 0 + (recognizer.depth + 1) ≤ _
          omega
        · exact hrest.mono (Nat.le_add_right _ _)
      · rw [hmove] at hspaces
        obtain rfl : goal = .surface := hspaces
        exact hrest

/-- Turns leave the agenda covered. -/
theorem Spaced.turns (h : Spaced recognizer agenda)
    (hturns : Relation.ReflTransGen Turn (recognizer, agenda) (next, left)) : Spaced next left := by
  generalize hsecond : (next, left) = second at hturns
  induction hturns generalizing next left with
  | refl =>
      obtain ⟨rfl, rfl⟩ := Prod.mk.inj hsecond
      exact h
  | @tail middle second _ hturn ih =>
      subst hsecond
      exact (ih rfl).turn hturn

/-- Declarations are accepted at the depth where the first starts, by the same tables and in front
of the same end. -/
theorem declares_keep (htables : recognizer.tables = .standard) (hends : recognizer.EndsInput)
    (h : Relation.ReflTransGen Declares recognizer next) :
    next.tables = .standard ∧ next.EndsInput ∧ next.depth = recognizer.depth := by
  induction h with
  | refl => exact ⟨htables, hends, rfl⟩
  | @tail middle next _ hdeclares ih =>
      obtain ⟨hmiddle, hmiddleEnds, hdepth⟩ := ih
      obtain ⟨seen, hpasses, -⟩ := accepted_declaration_local hmiddle hmiddleEnds hdeclares.2
      have hnext := recognize_rule_depth middle .declaration
      rw [hdeclares.2] at hnext
      exact ⟨hpasses.tables.trans hmiddle, hpasses.ends_input hmiddleEnds, hnext.trans hdepth⟩

/-- An error that names a reason is about a token of the input, for that reason. -/
theorem unexpected_cause {reason text : Option String} {lexeme : String}
    (h : (recognizer.unexpected reason).cause = .unexpectedToken lexeme text) :
    recognizer.kind ≠ .endOfInput ∧ reason = text := by
  unfold unexpected at h
  split at h
  · cases h
  · next hkind =>
    cases h
    exact ⟨hkind, rfl⟩

/-- A declaration that is rejected for the limit on nesting has more tokens in front of the error
than there are levels. -/
theorem index_of_nesting (htables : recognizer.tables = .standard) (hends : recognizer.EndsInput)
    (hdepth : recognizer.depth = 0) {lexeme : String}
    (h : recognizer.recognize [.rule .declaration] = (next, .rejected error))
    (hcause : error.cause = .unexpectedToken lexeme (some "nesting too deep")) :
    nestingLimit + 4 ≤ next.index := by
  obtain ⟨last, goal, rest, hturns, hstep, rfl⟩ := turns_of_rejected h
  have hstart : Spaced recognizer [.rule .declaration] :=
    ⟨⟨htables, hends, guarded_declaration _⟩, by simp [Covered, hdepth]⟩
  have hlast := hstart.turns hturns
  rcases step_error hstep with ⟨reason, hmove, rfl⟩ | ⟨goals, hmove, hlimit, rfl⟩
  · have hgoal := turns_fit hturns (by simp [Goal.reason?]) goal List.mem_cons_self
    have hreason := (move_fits last.tables last.kind hgoal).reason
    rw [hmove, (unexpected_cause hcause).2] at hreason
    exact absurd hreason nesting_not_refusal
  · have hspaces := move_spaces last.kind goal
    rw [← hlast.tables, hmove] at hspaces
    obtain ⟨-, -, hroom, -⟩ := hspaces
    have hmargin := hlast.covered.1
    show nestingLimit + 4 ≤ last.index
    omega

end Recognizer

end Decaf
