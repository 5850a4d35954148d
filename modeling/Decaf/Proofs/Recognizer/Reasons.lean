import Decaf.Proofs.Recognizer.Course
import Decaf.Proofs.Source.Lines

/-!
# The reasons of refusals

A goal for a token may carry the reason to give when another token stands there, and some goals
refuse a token for a reason of their own. `refusals` lists all of them: what a goal gives way to
keeps to the list when the goal does (`move_fits`), and so does all that a run comes to work on
(`turns_fit`). None of them breaks a line, so the reason of a syntax error is a text of one line
(`parse_reason`), and none of them is that of the limit on nesting (`nesting_not_refusal`).
-/

namespace Decaf

/-- A reason, where there is one, is a text of one line. -/
def FitsLine (reason : Option String) : Prop :=
  ∀ text ∈ reason, OneLine text

/-- A reason fits when its text does. -/
@[simp] theorem fits_line_some {text : String} : FitsLine (some text) ↔ OneLine text := by
  simp [FitsLine]

/-- The reasons that rules give for refusing a token. -/
def ruleRefusals : List String :=
  ["expected identifier during declaration", "expected a declaration",
    "expected identifier during variable declaration",
    "functions can only be declared at the top level", "expected an expression",
    "expected a type"]

/-- The reasons for which goals refuse a token: those of rules, and that another kind was
expected. -/
def refusals : List String :=
  ruleRefusals ++ TokenKind.all.map fun kind ↦ "expected " ++ kind.label

/-- A reason, where there is one, is one for which goals refuse a token. -/
def IsRefusal (reason : Option String) : Prop :=
  ∀ text ∈ reason, text ∈ refusals

/-- Where no reason is given, none is another. -/
@[simp] theorem is_refusal_none : IsRefusal none := nofun

/-- A reason is that of a refusal when its text is. -/
@[simp] theorem is_refusal_some {text : String} : IsRefusal (some text) ↔ text ∈ refusals := by
  simp [IsRefusal]

/-- The label of a kind does not break a line. -/
theorem one_line_label (kind : TokenKind) : OneLine kind.label := by
  have hall : ∀ kind ∈ TokenKind.all, OneLine kind.label := by decide +kernel
  exact hall kind (TokenKind.mem_all kind)

/-- The reasons of refusals do not break a line. -/
theorem IsRefusal.fits_line {reason : Option String} (h : IsRefusal reason) : FitsLine reason := by
  intro text htext
  rcases List.mem_append.mp (h text htext) with hrule | hkind
  · have hall : ∀ text ∈ ruleRefusals, OneLine text := by decide +kernel
    exact hall text hrule
  · obtain ⟨kind, -, rfl⟩ := List.mem_map.mp hkind
    exact OneLine.append (by decide) (one_line_label kind)

/-- The limit on nesting is not a reason to refuse a token. -/
theorem nesting_not_refusal : ¬ IsRefusal (some "nesting too deep") := by
  intro h
  rcases List.mem_append.mp (is_refusal_some.mp h) with hrule | hkind
  · exact absurd hrule (by decide)
  · obtain ⟨kind, -, hsame⟩ := List.mem_map.mp hkind
    have hhead := congrArg (fun text : String ↦ text.toList.head?) hsame
    simp at hhead

/-- The reason that a goal carries. -/
def Goal.reason? : Goal → Option String
  | .token _ reason => reason
  | _ => none

/-- The reason for which a move refuses. -/
def Move.reason? : Move → Option String
  | .refuse reason => reason
  | _ => none

/-- Neither a move nor a goal it gives way to has a reason that is none of the refusals. -/
structure Move.Fits (move : Move) : Prop where
  goals : ∀ goal ∈ move.goals, IsRefusal goal.reason?
  reason : IsRefusal move.reason?

/-- To give way to goals fits when the goals do. -/
theorem expand_fits {goals : List Goal} (h : ∀ goal ∈ goals, IsRefusal goal.reason?) :
    (Move.expand goals).Fits :=
  ⟨h, is_refusal_none⟩

/-- To refuse fits when the reason does. -/
theorem refuse_fits {reason : Option String} (h : IsRefusal reason) : (Move.refuse reason).Fits :=
  ⟨List.forall_mem_nil _, h⟩

/-- To take a token gives no reason. -/
theorem take_fits : Move.take.Fits :=
  ⟨List.forall_mem_nil _, is_refusal_none⟩

/-- To close a level gives no reason. -/
theorem surface_fits : Move.surface.Fits :=
  ⟨List.forall_mem_nil _, is_refusal_none⟩

/-- The reasons that rules give are reasons for refusals. -/
theorem rule_refusal_mem {text : String} (h : text ∈ ruleRefusals) : text ∈ refusals :=
  List.mem_append_left _ h

/-- To expect a kind of token is a reason for a refusal. -/
theorem expected_mem_refusals (kind : TokenKind) : "expected " ++ kind.label ∈ refusals :=
  List.mem_append_right _ (List.mem_map.mpr ⟨kind, TokenKind.mem_all kind, rfl⟩)

/-- The reasons of plain rules fit. -/
theorem rule_move_fits (kind : TokenKind) (rule : Rule) : (rule.move kind).Fits := by
  cases rule with
  | declaration =>
      have hname : "expected identifier during declaration" ∈ refusals :=
        rule_refusal_mem (by decide)
      have hnone : "expected a declaration" ∈ refusals := rule_refusal_mem (by decide)
      rw [Rule.move]
      split
      · exact expand_fits (by simp [Goal.reason?, Goal.type, hname])
      · exact refuse_fits (is_refusal_some.mpr hnone)
  | variableStatement =>
      have hname : "expected identifier during variable declaration" ∈ refusals :=
        rule_refusal_mem (by decide)
      exact expand_fits (by simp [Goal.reason?, Goal.type, hname])
  | arguments =>
      rw [Rule.move]
      split
      · exact expand_fits (by simp)
      · exact expand_fits (by simp [Goal.reason?, Goal.expression])
  | statement => exact ⟨by simp [Rule.move, Move.goals, Goal.reason?], is_refusal_none⟩
  | _ => exact expand_fits (by simp [Goal.reason?, Goal.expression, Goal.expect])

/-- Graded rules give no reasons. -/
theorem graded_move_fits (power : Power) (rule : GradedRule) : (rule.move power).Fits := by
  cases rule with
  | expression => exact ⟨by simp [GradedRule.move, Move.goals, Goal.reason?], is_refusal_none⟩
  | _ => exact expand_fits (by simp [Goal.reason?, Goal.expression, Goal.expect])

/-- Entering a construct fits when the reason to refuse it does. -/
theorem enter_fits (entry : Option Rule) {reason : String} (h : reason ∈ refusals) :
    (Tables.enter entry reason).Fits := by
  cases entry with
  | none => exact refuse_fits (is_refusal_some.mpr h)
  | some rule => exact expand_fits (by simp [Goal.reason?])

/-- Going on with a construct fits when the goal that returns does. -/
theorem continue_at_fits {again : Goal} (hagain : IsRefusal again.reason?)
    (entry : Option GradedRule) (binding : Option Power) (power : Power) :
    (Tables.continueAt entry binding power again).Fits := by
  unfold Tables.continueAt
  split
  · exact expand_fits (by simp)
  · cases entry with
    | none => exact refuse_fits is_refusal_none
    | some rule =>
        refine expand_fits (List.forall_mem_cons.mpr ⟨is_refusal_none, ?_⟩)
        exact List.forall_mem_singleton.mpr hagain

/-- The move of a goal fits when the reason it carries does. -/
theorem move_fits (tables : Tables) (kind : TokenKind) {goal : Goal}
    (hgoal : IsRefusal goal.reason?) : (tables.move kind goal).Fits := by
  cases goal with
  | token expected reason =>
      rw [Tables.move]
      split
      · exact take_fits
      · refine refuse_fits (is_refusal_some.mpr ?_)
        cases reason with
        | none => exact expected_mem_refusals expected
        | some text => exact is_refusal_some.mp hgoal
  | anyToken => exact take_fits
  | surface => exact surface_fits
  | rule rule => exact rule_move_fits kind rule
  | graded rule power => exact graded_move_fits power rule
  | operand | typeHead => exact enter_fits _ (rule_refusal_mem (by decide))
  | operators power | typeSuffixes power =>
      refine continue_at_fits ?_ _ _ power
      exact is_refusal_none
  | variableTail =>
      have htop : "functions can only be declared at the top level" ∈ refusals :=
        rule_refusal_mem (by decide)
      rw [Tables.move]
      split
      · exact refuse_fits (is_refusal_some.mpr htop)
      · exact expand_fits (by simp [Goal.reason?, Goal.expect])
  | _ =>
      rw [Tables.move]
      split <;> exact expand_fits (by simp [Goal.reason?, Goal.type, Goal.expression, Goal.expect])

namespace Recognizer

variable {recognizer next : Recognizer} {agenda : List Goal} {error : Diagnostic}

/-- A turn leaves an agenda of goals with the reasons of refusals, if it finds one. -/
theorem turn_fits {first second : Recognizer × List Goal} (h : Turn first second)
    (hfirst : ∀ goal ∈ first.2, IsRefusal goal.reason?) :
    ∀ goal ∈ second.2, IsRefusal goal.reason? := by
  cases h with
  | @work recognizer goal rest outcome hstep =>
      obtain ⟨hgoal, hrest⟩ := List.forall_mem_cons.mp hfirst
      have hmove := (move_fits recognizer.tables recognizer.kind hgoal).goals
      rcases step_ok hstep with ⟨-, -, heq⟩ | ⟨goals, hexpand, -, heq⟩ | ⟨goals, hnest, -, -, heq⟩ |
        ⟨-, -, heq⟩
      · rwa [heq]
      · rw [hexpand] at hmove
        rw [heq]
        exact List.forall_mem_append.mpr ⟨hmove, hrest⟩
      · rw [hnest] at hmove
        rw [heq]
        exact List.forall_mem_append.mpr
          ⟨hmove, List.forall_mem_cons.mpr ⟨is_refusal_none, hrest⟩⟩
      · rwa [heq]

/-- Turns leave an agenda of goals with the reasons of refusals, if they find one. -/
theorem turns_fit {first second : Recognizer × List Goal}
    (h : Relation.ReflTransGen Turn first second)
    (hfirst : ∀ goal ∈ first.2, IsRefusal goal.reason?) :
    ∀ goal ∈ second.2, IsRefusal goal.reason? := by
  induction h with
  | refl => exact hfirst
  | tail _ hturn ih => exact turn_fits hturn ih

/-- A run whose goals carry reasons of refusals stops for a reason of one line. -/
theorem run_reason {moves : Nat} (hagenda : ∀ goal ∈ agenda, IsRefusal goal.reason?)
    (h : run moves recognizer agenda = (next, .rejected error)) :
    ∃ reason, FitsLine reason ∧ error = next.unexpected reason := by
  obtain ⟨last, goal, rest, hturns, hstep, rfl⟩ := turns_of_rejected h
  have hgoal := turns_fit hturns hagenda goal List.mem_cons_self
  rcases step_error hstep with ⟨reason, hmove, rfl⟩ | ⟨goals, -, -, rfl⟩
  · have hreason := (move_fits last.tables last.kind hgoal).reason
    rw [hmove] at hreason
    exact ⟨reason, hreason.fits_line, rfl⟩
  · have hdeep : OneLine "nesting too deep" := by decide
    exact ⟨_, fits_line_some.mpr hdeep, rfl⟩

end Recognizer

/-- The error of a parse is about the token at which it stopped, for a reason of one line. -/
theorem parse_reason {tokens : List Token} {file : String} {error : Diagnostic}
    (h : (parse tokens file).2 = .rejected error) :
    ∃ reason, FitsLine reason ∧ error = (parse tokens file).1.unexpected reason := by
  obtain ⟨start, -, hrun⟩ := Recognizer.declaration_of_rejected (Prod.ext rfl h)
  exact Recognizer.run_reason (by simp [Goal.reason?]) hrun

end Decaf
