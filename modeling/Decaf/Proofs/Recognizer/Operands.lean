import Decaf.Proofs.Recognizer.Levels

/-!
# The levels of an operand

How many levels of nesting it takes to read an operand. `Yields` says over which kinds some goals
give way to others: an operand to the operators behind it, and an expression to what follows it.
There is one lemma for each form of operand and each suffix: only a sign opens a level, and an
expression that stands in parentheses, in brackets or among arguments brings its own.
-/

namespace Decaf

/-- The power at which a kind goes on behind an operand; a kind without one binds loosest. -/
def TokenKind.binding (kind : TokenKind) : Power :=
  (Tables.standard.power kind).getD .lowest

/-- What comes ahead binds no tighter than the power. -/
def Stops (power : Power) (ahead : List TokenKind) : Prop :=
  ∃ kind behind, ahead = kind :: behind ∧ kind.binding ≤ power

/-- What comes ahead starts with a kind. -/
def StartsWith (kind : TokenKind) (ahead : List TokenKind) : Prop :=
  ∃ behind, ahead = kind :: behind

/-- Over the kinds, in the given number of levels, some goals give way to others, whatever stands
behind them and in front of whatever comes after that is as asked. -/
def Yields (levels : Nat) (goals later : List Goal) (asked : List TokenKind → Prop)
    (kinds : List TokenKind) : Prop :=
  ∀ ⦃more : Nat⦄ ⦃after left : List TokenKind⦄ ⦃rest : List Goal⦄, levels ≤ more → asked after →
    Clears more (later ++ rest) after left → Clears more (goals ++ rest) (kinds ++ after) left

/-- Over the kinds an operand gives way to the operators behind it, at any power up to that of a
sign, if what comes after is no further suffix. -/
def OperandYields (levels : Nat) (kinds : List TokenKind) : Prop :=
  ∀ ⦃power : Power⦄, power ≤ .unary →
    Yields levels [.operand, .operators power] [.operators power] (Stops .unary) kinds

/-- The operators behind an operand take up the kinds as suffixes and come back. -/
def SuffixesYield (levels : Nat) (kinds : List TokenKind) : Prop :=
  ∀ ⦃power : Power⦄, power ≤ .unary →
    Yields levels [.operators power] [.operators power] (fun _ ↦ True) kinds

section

variable {levels more : Nat} {goal : Goal} {goals middle later rest : List Goal}
  {power other : Power} {kind : TokenKind} {ahead left kinds first second : List TokenKind}
  {asked between : List TokenKind → Prop}

/-! ## Moves in front of operands and operators -/

/-- What stops at a power stops at a higher one. -/
theorem Stops.mono (h : Stops power ahead) (hle : power ≤ other) : Stops other ahead := by
  obtain ⟨kind, behind, rfl, hkind⟩ := h
  exact ⟨kind, behind, rfl, Nat.le_trans hkind hle⟩

/-- An operand gives way to the rule for the kind that starts it. -/
theorem move_operand_rule {rule : Rule} (h : operandRule? kind = some rule) :
    Tables.standard.move kind .operand = .expand [.rule rule] := by
  rw [standard_eq]
  simp only [Tables.move, Tables.enter, h]

/-- Operators end in front of a kind that binds no tighter. -/
theorem move_operators_end (h : kind.binding ≤ power) :
    Tables.standard.move kind (.operators power) = .expand [] :=
  if_pos h

/-- Operators give way to the rule for a kind that binds tighter, and come back. -/
theorem move_operators_rule {rule : GradedRule} (hrule : operatorRule? kind = some rule)
    (h : ¬ kind.binding ≤ power) :
    Tables.standard.move kind (.operators power) =
      .expand [.graded rule kind.binding, .operators power] := by
  have hentry : Tables.standard.operator kind = some rule := by
    rw [standard_eq]
    exact hrule
  refine (if_neg h).trans ?_
  simp only [hentry]
  rfl

/-- Operators are worked off in front of what stops at their power. -/
theorem Stops.clears (h : Stops power ahead) (hrest : Clears levels rest ahead left) :
    Clears levels (.operators power :: rest) ahead left := by
  obtain ⟨kind, behind, rfl, hkind⟩ := h
  exact .shift (.expand (move_operators_end hkind)) hrest

/-- A goal is worked off in front of a kind that it does not refuse. -/
theorem Clears.starts (h : Clears levels (goal :: rest) ahead left) :
    ∃ kind behind, ahead = kind :: behind ∧
      ∀ reason, Tables.standard.move kind goal ≠ .refuse reason := by
  cases h with
  | shift hshift _ =>
      cases hshift with
      | take hmove _ => exact ⟨_, _, rfl, fun _ hrefuse ↦ nomatch hmove.symm.trans hrefuse⟩
      | expand hmove => exact ⟨_, _, rfl, fun _ hrefuse ↦ nomatch hmove.symm.trans hrefuse⟩
  | nest hmove _ _ _ => exact ⟨_, _, rfl, fun _ hrefuse ↦ nomatch hmove.symm.trans hrefuse⟩

/-- An operand is worked off in front of a kind that starts one. -/
theorem Clears.operand_start (h : Clears levels (.operand :: rest) ahead left) :
    ∃ kind behind, ahead = kind :: behind ∧ kind ∈ operandStarts := by
  obtain ⟨kind, behind, rfl, haccepts⟩ := h.starts
  refine ⟨kind, behind, rfl, ?_⟩
  have hrefused : ∀ kind : TokenKind, kind ∉ operandStarts →
      Tables.standard.move kind .operand = .refuse (some "expected an expression") := by
    intro kind
    cases kind <;> decide
  by_contra hstart
  exact haccepts _ (hrefused kind hstart)

/-- An expression is worked off one level deeper. -/
theorem Clears.expression {seen : List TokenKind}
    (hinner : Clears levels [.operand, .operators power] ahead seen)
    (houter : Clears (levels + 1) rest seen left) :
    Clears (levels + 1) (.graded .expression power :: rest) ahead left := by
  obtain ⟨kind, behind, rfl, hkind⟩ := hinner.operand_start
  refine .nest rfl ?_ hinner houter
  rintro rfl
  exact absurd hkind (by decide)

/-- An expression is worked off in front of a kind that starts an operand. -/
theorem Clears.expression_start (h : Clears levels (.graded .expression power :: rest) ahead left) :
    ∃ kind behind, ahead = kind :: behind ∧ kind ∈ operandStarts := by
  cases h with
  | shift hshift _ =>
      cases hshift with
      | take hmove _ => cases hmove
      | expand hmove => cases hmove
  | nest hmove _ hinner _ =>
      cases hmove
      exact hinner.operand_start

/-! ## Goals in a row -/

/-- What goals yield to in some levels they yield to in more. -/
theorem Yields.mono (h : Yields levels goals later asked kinds) (hle : levels ≤ more) :
    Yields more goals later asked kinds :=
  fun _ _ _ _ hmore ↦ h (hle.trans hmore)

/-- Operands that are read in some levels are read in more. -/
theorem OperandYields.mono (h : OperandYields levels kinds) (hle : levels ≤ more) :
    OperandYields more kinds :=
  fun _ hpower ↦ (h hpower).mono hle

/-- Suffixes that are read in some levels are read in more. -/
theorem SuffixesYield.mono (h : SuffixesYield levels kinds) (hle : levels ≤ more) :
    SuffixesYield more kinds :=
  fun _ hpower ↦ (h hpower).mono hle

/-- Goals yield to others over two stretches of kinds in a row. -/
theorem Yields.append (hfirst : Yields levels goals middle between first)
    (hsecond : Yields levels middle later asked second)
    (hbetween : ∀ after, asked after → between (second ++ after)) :
    Yields levels goals later asked (first ++ second) := by
  intro more after left rest hmore hafter h
  rw [List.append_assoc]
  exact hfirst hmore (hbetween after hafter) (hsecond hmore hafter h)

/-- Goals yield to others in front of any goals behind them. -/
theorem Yields.frame (h : Yields levels goals later asked kinds) (behind : List Goal) :
    Yields levels (goals ++ behind) (later ++ behind) asked kinds := by
  intro more after left rest hmore hafter hclears
  rw [List.append_assoc] at hclears ⊢
  exact h hmore hafter hclears

/-- A goal in front of others is worked off first. -/
theorem Yields.cons (hfirst : Yields levels [goal] [] between first)
    (hrest : Yields levels goals later asked second)
    (hbetween : ∀ after, asked after → between (second ++ after)) :
    Yields levels (goal :: goals) later asked (first ++ second) :=
  Yields.append (hfirst.frame goals) hrest hbetween

/-- A token is taken where its kind comes first. -/
theorem Yields.token {reason : Option String} (hkind : kind ≠ .endOfInput)
    (h : Yields levels goals later asked kinds) :
    Yields levels (.token kind reason :: goals) later asked (kind :: kinds) :=
  fun _ _ _ _ hmore hafter hclears ↦
    .shift (.take (if_pos rfl) hkind) (h hmore hafter hclears)

/-- Whatever token comes first is taken. -/
theorem Yields.any (hkind : kind ≠ .endOfInput) (h : Yields levels goals later asked kinds) :
    Yields levels (.anyToken :: goals) later asked (kind :: kinds) :=
  fun _ _ _ _ hmore hafter hclears ↦ .shift (.take rfl hkind) (h hmore hafter hclears)

/-- A goal yields where the goals it gives way to do. -/
theorem Yields.expand (hmove : Tables.standard.move kind goal = .expand goals)
    (h : Yields levels (goals ++ rest) later asked (kind :: kinds)) :
    Yields levels (goal :: rest) later asked (kind :: kinds) := by
  intro more after left behind hmore hafter hclears
  have hgoals := h hmore hafter hclears
  rw [List.append_assoc] at hgoals
  exact .shift (.expand hmove) hgoals

/-- A goal that opens a level is worked off in one level more. -/
theorem Yields.nest (hmove : Tables.standard.move kind goal = .nest goals)
    (hkind : kind ≠ .endOfInput) (h : Yields levels goals [] asked (kind :: kinds)) :
    Yields (levels + 1) [goal] [] asked (kind :: kinds) := by
  intro more after left rest hmore hafter hclears
  obtain ⟨more, rfl⟩ := Nat.exists_eq_add_of_le' (Nat.le_of_add_left_le hmore)
  have hinner := h (Nat.le_of_succ_le_succ hmore) hafter .done
  rw [List.append_nil] at hinner
  exact .nest hmove hkind hinner hclears

/-- No goals are nothing to work off. -/
theorem Yields.nil : Yields levels [] [] asked [] :=
  fun _ _ _ _ _ _ h ↦ h

/-! ## Operands -/

/-- An atom is an operand. -/
theorem atom_yields (hkind : kind ∈ atoms) :
    Yields 0 [.operand] [] (fun _ ↦ True) [kind] := by
  have hatom : ∀ kind ∈ atoms, operandRule? kind = some .atom ∧ kind ≠ .endOfInput := by decide
  obtain ⟨hrule, hend⟩ := hatom kind hkind
  exact .expand (move_operand_rule hrule) (.expand rfl (.any hend .nil))

/-- An expression in parentheses is an operand. -/
theorem group_yields (h : Yields levels [.expression] [] (Stops .lowest) kinds) :
    Yields levels [.operand] [] (fun _ ↦ True)
      (.openParen :: (kinds ++ [TokenKind.closeParen])) := by
  have hclose : Yields levels [.expect .closeParen] [] (fun _ ↦ True) [.closeParen] :=
    .token (by decide) .nil
  refine .expand (move_operand_rule rfl) (.expand rfl (.token (by decide) (.cons h hclose ?_)))
  exact fun after _ ↦ ⟨.closeParen, after, rfl, by decide⟩

/-- An operand behind a sign is an operand, read one level deeper. -/
theorem signed_yields (hkind : kind ∈ signOperators) (h : OperandYields levels kinds) :
    OperandYields (levels + 1) (kind :: kinds) := by
  have hsign : ∀ kind ∈ signOperators, operandRule? kind = some .signed ∧ kind ≠ .endOfInput := by
    decide
  obtain ⟨hrule, hend⟩ := hsign kind hkind
  have hoperand : Yields (levels + 1) [.graded .expression .unary] [] (Stops .unary) kinds := by
    intro more after left rest hmore hafter hclears
    obtain ⟨more, rfl⟩ := Nat.exists_eq_add_of_le' (Nat.le_of_add_left_le hmore)
    exact (h (Nat.le_refl _) (Nat.le_of_succ_le_succ hmore) hafter
      (hafter.clears .done)).expression hclears
  intro power _
  exact Yields.frame (.expand (move_operand_rule hrule) (.expand rfl (.any hend hoperand)))
    [.operators power]

/-- Suffixes go with the operand in front of them. -/
theorem OperandYields.of_suffixes (hfirst : Yields levels [.operand] [] (fun _ ↦ True) first)
    (hsecond : SuffixesYield levels second) : OperandYields levels (first ++ second) :=
  fun power hpower _ _ _ _ hmore _ hclears ↦
    Yields.append (hfirst.frame [.operators power]) (hsecond hpower) (fun _ ↦ id) hmore trivial
      hclears

/-! ## Suffixes -/

/-- No kinds are no suffix. -/
theorem SuffixesYield.nil : SuffixesYield levels [] :=
  fun _ _ _ _ _ _ _ _ h ↦ h

/-- Suffixes in a row are suffixes. -/
theorem SuffixesYield.append (hfirst : SuffixesYield levels first)
    (hsecond : SuffixesYield levels second) : SuffixesYield levels (first ++ second) :=
  fun _ hpower ↦ (hfirst hpower).append (hsecond hpower) fun _ ↦ id

/-- A suffix is what the rule for its first kind takes. -/
theorem suffix_yields {rule : GradedRule} (hkind : kind ∈ suffixStarts)
    (hrule : operatorRule? kind = some rule)
    (h : Yields levels [.graded rule kind.binding] [] (fun _ ↦ True) (kind :: kinds)) :
    SuffixesYield levels (kind :: kinds) := by
  have htight : ∀ kind ∈ suffixStarts, ¬ kind.binding ≤ .unary := by decide
  intro power hpower
  have hbinding : ¬ kind.binding ≤ power := fun hle ↦
    htight kind hkind (Nat.le_trans hle hpower)
  exact .expand (move_operators_rule hrule hbinding) (h.frame [.operators power])

/-- A member is a suffix. -/
theorem member_yields : SuffixesYield levels [.dot, .identifier] := by
  refine suffix_yields (by decide) rfl (.expand rfl ?_)
  exact .token (by decide) (.token (by decide) .nil)

/-- A call is a suffix. -/
theorem call_yields (h : Yields levels [.rule .arguments] [] (StartsWith .closeParen) kinds) :
    SuffixesYield levels (.openParen :: (kinds ++ [TokenKind.closeParen])) := by
  have hclose : Yields levels [.expect .closeParen] [] (fun _ ↦ True) [.closeParen] :=
    .token (by decide) .nil
  refine suffix_yields (by decide) rfl (.expand rfl (.token (by decide) (.cons h hclose ?_)))
  exact fun after _ ↦ ⟨after, rfl⟩

/-- An index is a suffix. -/
theorem index_yields (h : Yields levels [.expression] [] (Stops .lowest) kinds) :
    SuffixesYield levels (.openBracket :: (kinds ++ [TokenKind.closeBracket])) := by
  have hclose : Yields levels [.expect .closeBracket] [] (fun _ ↦ True) [.closeBracket] :=
    .token (by decide) .nil
  refine suffix_yields (by decide) rfl (.expand rfl (.token (by decide) (.cons h hclose ?_)))
  exact fun after _ ↦ ⟨.closeBracket, after, rfl, by decide⟩

/-! ## Arguments and expressions -/

/-- No arguments are none to work off. -/
theorem no_arguments_yield : Yields levels [.rule .arguments] [] (StartsWith .closeParen) [] := by
  rintro more _ left rest - ⟨behind, rfl⟩ h
  exact .shift (.expand rfl) h

/-- An expression and more of them are arguments. -/
theorem arguments_yield (hfirst : Yields levels [.expression] [] (Stops .lowest) first)
    (hmore : Yields levels [.moreArguments] [] (StartsWith .closeParen) second)
    (hbetween : ∀ after, StartsWith .closeParen after → Stops .lowest (second ++ after)) :
    Yields levels [.rule .arguments] [] (StartsWith .closeParen) (first ++ second) := by
  intro more after left rest hlevels hafter hclears
  have hgoals := Yields.cons hfirst hmore hbetween hlevels hafter hclears
  obtain ⟨kind, behind, hahead, hkind⟩ := Clears.expression_start hgoals
  have hclose : kind ≠ .closeParen := by
    rintro rfl
    exact absurd hkind (by decide)
  rw [hahead] at hgoals ⊢
  exact .shift (.expand (if_neg hclose)) hgoals

/-- There may be no more arguments. -/
theorem no_more_arguments_yield :
    Yields levels [.moreArguments] [] (StartsWith .closeParen) [] := by
  rintro more _ left rest - ⟨behind, rfl⟩ h
  exact .shift (.expand rfl) h

/-- An expression behind a comma is one more argument. -/
theorem more_arguments_yield (hfirst : Yields levels [.expression] [] (Stops .lowest) first)
    (hmore : Yields levels [.moreArguments] [] (StartsWith .closeParen) second)
    (hbetween : ∀ after, StartsWith .closeParen after → Stops .lowest (second ++ after)) :
    Yields levels [.moreArguments] [] (StartsWith .closeParen) (.comma :: (first ++ second)) :=
  .expand rfl (.any (by decide) (.cons hfirst hmore hbetween))

/-- An operand and what its operators take is an expression, read one level deeper. -/
theorem expression_yields (hpower : power ≤ .unary) (hfirst : OperandYields levels first)
    (hsecond : Yields levels [.operators power] [] (Stops power) second)
    (hbetween : ∀ after, Stops power after → Stops .unary (second ++ after)) :
    Yields (levels + 1) [.graded .expression power] [] (Stops power) (first ++ second) := by
  intro more after left rest hmore hafter hclears
  obtain ⟨more, rfl⟩ := Nat.exists_eq_add_of_le' (Nat.le_of_add_left_le hmore)
  have hlevels : levels ≤ more := Nat.le_of_succ_le_succ hmore
  rw [List.append_assoc]
  exact (hfirst hpower hlevels (hbetween after hafter)
    (hsecond hlevels hafter .done)).expression hclears

/-- An operand alone is an expression, read one level deeper. -/
theorem operand_expression_yields (h : OperandYields levels kinds) :
    Yields (levels + 1) [.expression] [] (Stops .lowest) kinds := by
  have hoperators : Yields levels [.operators .lowest] [] (Stops .lowest) [] :=
    fun _ _ _ _ _ hafter hclears ↦ hafter.clears hclears
  have hexpression := expression_yields (by decide) h hoperators
    fun _ hafter ↦ hafter.mono (by decide)
  rwa [List.append_nil] at hexpression

end

end Decaf
