import Decaf.Proofs.Recognizer.Lookahead

/-!
# The operators behind an operand

An operator goal leaves the operators that bind too loosely to a goal further down the agenda, so
here alone the token does not settle which goal reads it. `Resumes.operators_mul` finds the rule
for the operator that stands in front, whoever is to read it, and `mem_operators_mul_of_rule` puts
what the rule has read back among the operators. `Closes.leave` says that nothing is lost where a
goal stops.
-/

namespace Decaf

section

variable {kind : TokenKind} {word : List TokenKind} {beyond : Language TokenKind}

/-- Operators may be missing. -/
theorem one_le_operators (power : Power) : 1 ≤ operatorsLanguage power := by
  unfold operatorsLanguage
  split
  · exact one_le_postfixes
  · exact one_le_continuations

/-- What lies beyond operators may stand in their place. -/
theorem le_operators_mul (power : Power) (beyond : Language TokenKind) :
    beyond ≤ operatorsLanguage power * beyond := by
  calc beyond = 1 * beyond := (one_mul beyond).symm
    _ ≤ operatorsLanguage power * beyond := mul_le_mul_left (one_le_operators power) beyond

/-- Suffixes in front of operators are operators. -/
theorem postfixes_mul_operators (power : Power) :
    words [.phrase .postfixes] * operatorsLanguage power = operatorsLanguage power := by
  unfold operatorsLanguage
  split
  · exact postfixes_mul_self
  · rw [continuations_eq, ← mul_assoc, postfixes_mul_self]

/-- An operand and its operators are an expression. -/
theorem operand_mul_operators (power : Power) :
    words [.phrase .operand] * operatorsLanguage power = expressionLanguage power := by
  unfold operatorsLanguage expressionLanguage
  split
  · exact operand_mul_postfixes
  · exact operand_mul_continuations

/-- There is a rule for every binary operator. -/
theorem exists_binary_rule (h : kind ∈ binaryOperators) :
    ∃ rule, operatorRule? kind = some rule := by
  have hall : ∀ kind ∈ binaryOperators, (operatorRule? kind).isSome := by decide
  exact Option.isSome_iff_exists.mp (hall kind h)

/-- The rule for a binary operator is that for operators or that for assignments, and the operator
binds looser than a sign. -/
theorem binary_entry {rule : GradedRule} {binding : Power} (h : kind ∈ binaryOperators)
    (hrule : operatorRule? kind = some rule) (hbinding : operatorPower? kind = some binding) :
    (rule = .binary ∨ rule = .assignment) ∧ ¬ .unary ≤ binding := by
  revert h
  cases kind <;> cases hrule <;> cases hbinding <;> decide

/-- What a rule for a binary operator stands for. -/
theorem binary_rule_language {rule : GradedRule} {power : Power}
    (hrule : rule = .binary ∨ rule = .assignment) (hpower : ¬ .unary ≤ power) :
    rule.language power = anyKind * words [.phrase .expression] := by
  rcases hrule with rfl | rfl
  · show anyKind * expressionLanguage power = _
    rw [expressionLanguage, if_neg hpower]
  · rfl

/-- The rules behind an operand that are not for binary operators are for suffixes. -/
theorem suffix_entry {rule : GradedRule} (h : operatorRule? kind = some rule)
    (hkind : kind ∉ binaryOperators) : rule = .member ∨ rule = .call ∨ rule = .index := by
  revert hkind
  cases kind <;> cases h <;> decide

/-- What a rule for a suffix stands for. -/
theorem suffix_rule_language_le {rule : GradedRule} {power : Power}
    (h : rule = .member ∨ rule = .call ∨ rule = .index) :
    rule.language power ≤ words [.phrase .postfixes] := by
  have hsuffix : rule.language power ≤ oneSuffix := by
    rcases h with rfl | rfl | rfl
    · exact le_self_add
    · exact le_self_add.trans le_add_self
    · exact le_add_self.trans le_add_self
  rw [words_postfixes]
  exact hsuffix.trans le_kstar

/-- A suffix that a word starts with is what its rule stands for. -/
theorem suffix_choice {symbols : List Symbol} {power : Power}
    (hchoice : symbols ∈ choices .postfixes kind) (h : kind :: word ∈ words symbols * beyond) :
    ∃ rule, operatorRule? kind = some rule ∧
      kind :: word ∈ rule.language power * (words [.phrase .postfixes] * beyond) := by
  obtain ⟨hmem, hleader⟩ := List.mem_filter.mp hchoice
  have hkind : kind ∈ leaders symbols := by simpa using hleader
  simp only [productions, List.mem_cons, List.not_mem_nil, or_false] at hmem
  rcases hmem with rfl | rfl | rfl | rfl
  · cases hkind
  · obtain rfl := List.mem_singleton.mp hkind
    refine ⟨.member, rfl, ?_⟩
    rwa [GradedRule.language, ← mul_assoc, ← words_append]
  · obtain rfl := List.mem_singleton.mp hkind
    refine ⟨.call, rfl, ?_⟩
    rwa [GradedRule.language, ← mul_assoc, ← words_append]
  · obtain rfl := List.mem_singleton.mp hkind
    refine ⟨.index, rfl, ?_⟩
    rwa [GradedRule.language, ← mul_assoc, ← words_append]

/-- A binary operator that a word starts with is followed by an expression. -/
theorem binary_choice {symbols : List Symbol} (hchoice : symbols ∈ choices .moreOperands kind)
    (h : kind :: word ∈ words symbols * beyond) :
    kind ∈ binaryOperators ∧ kind :: word ∈ anyKind * (words [.phrase .expression] * beyond) := by
  obtain ⟨hmem, hleader⟩ := List.mem_filter.mp hchoice
  have hkind : kind ∈ leaders symbols := by simpa using hleader
  rcases List.mem_cons.mp hmem with rfl | hmem
  · cases hkind
  · obtain ⟨operator, hoperator, rfl⟩ := List.mem_map.mp hmem
    obtain rfl := List.mem_singleton.mp hkind
    refine ⟨hoperator, cons_mem_any_mul.mpr ?_⟩
    rw [words_phrase_single rfl]
    exact (cons_mem_token_mul.mp h).2

/-- Where operators may be left over, they may be left over behind more operators. -/
theorem Resumes.operators_mul (h : Resumes beyond) (power : Power) :
    Resumes (operatorsLanguage power * beyond) := by
  intro kind word binding hword hbinding hlowest
  have hbeyond : kind :: word ∈ beyond → ∃ rule, operatorRule? kind = some rule ∧
      kind :: word ∈ rule.language binding * (operatorsLanguage power * beyond) := by
    intro hword
    obtain ⟨rule, hrule, hmem⟩ := h hword hbinding hlowest
    exact ⟨rule, hrule, mul_le_mul_right (le_operators_mul power beyond) _ hmem⟩
  -- The operator stands in front of what is read here, or else in front of what lies beyond.
  unfold operatorsLanguage at hword hbeyond ⊢
  split at hword
  · next hpower =>
    rw [if_pos hpower] at hbeyond ⊢
    rcases cons_mem_phrase_mul.mp hword with ⟨symbols, hchoice, hsymbols⟩ | ⟨-, hrest⟩
    · exact suffix_choice hchoice hsymbols
    · exact hbeyond hrest
  · next hpower =>
    rw [if_neg hpower] at hbeyond ⊢
    rw [continuations_eq, mul_assoc] at hword ⊢
    rcases cons_mem_phrase_mul.mp hword with ⟨symbols, hchoice, hsymbols⟩ | ⟨-, hrest⟩
    · exact suffix_choice hchoice hsymbols
    rcases cons_mem_phrase_mul.mp hrest with ⟨symbols, hchoice, hsymbols⟩ | ⟨-, hrest⟩
    · obtain ⟨hoperator, hmem⟩ := binary_choice hchoice hsymbols
      obtain ⟨rule, hrule⟩ := exists_binary_rule hoperator
      obtain ⟨hform, hunary⟩ := binary_entry hoperator hrule hbinding
      refine ⟨rule, hrule, ?_⟩
      rw [binary_rule_language hform hunary, mul_assoc, ← mul_assoc (words [.phrase .postfixes]),
        ← continuations_eq]
      refine mul_le_mul_right (mul_le_mul_right ?_ _) anyKind hmem
      calc beyond = 1 * beyond := (one_mul beyond).symm
        _ ≤ continuations * beyond := mul_le_mul_left one_le_continuations beyond
    · rw [← mul_assoc, ← continuations_eq]
      exact hbeyond hrest

/-- An operator that binds tighter than the power being read, and more operators, are operators. -/
theorem mem_operators_mul_of_rule {rule : GradedRule} {power binding : Power}
    (hrule : operatorRule? kind = some rule)
    (hbinding : operatorPower? kind = some binding) (hpower : ¬ binding ≤ power)
    (h : kind :: word ∈ rule.language binding * (operatorsLanguage power * beyond)) :
    kind :: word ∈ operatorsLanguage power * beyond := by
  by_cases hkind : kind ∈ binaryOperators
  · obtain ⟨hform, hunary⟩ := binary_entry hkind hrule hbinding
    -- The operator binds looser than a sign, and the power looser still, so all continuations fit.
    have hcontinue : ¬ .unary ≤ power := by
      simp only [Power.le_iff_rank_le] at hunary hpower ⊢
      omega
    rw [operatorsLanguage, if_neg hcontinue] at h ⊢
    rw [binary_rule_language hform hunary, mul_assoc] at h
    have hexpression := cons_mem_any_mul.mp h
    rw [← mul_assoc] at hexpression
    have hshort := mul_le_mul_left expression_mul_continuations_le beyond hexpression
    rw [expression_eq, mul_assoc] at hshort
    have hmore : kind :: word ∈ words [.phrase .moreOperands] * beyond := by
      refine mul_le_mul_left (words_le_phrase
        (List.mem_cons_of_mem _ (List.mem_map.mpr ⟨kind, hkind, rfl⟩))) beyond ?_
      rw [words_cons_cons_mul, words_cons_cons_mul]
      exact cons_mem_token_mul.mpr ⟨rfl, by rwa [words_nil_mul]⟩
    rw [continuations_eq, mul_assoc]
    exact Language.append_mem_mul (nil_mem_phrase rfl) hmore
  · rw [← postfixes_mul_operators, mul_assoc]
    exact mul_le_mul_left (suffix_rule_language_le (suffix_entry hrule hkind)) _ h

/-- What may follow an expression may follow its operators too. -/
theorem Closes.operators_mul {power binding : Power} (h : Closes power beyond)
    (hunary : ¬ .unary ≤ binding) (hpower : ¬ binding ≤ power) :
    Closes binding (operatorsLanguage power * beyond) where
  le_unary := by
    simp only [Power.le_iff_rank_le] at hunary ⊢
    omega
  resumes := h.resumes.operators_mul power
  absorbs _ _ := by
    have hcontinue : ¬ .unary ≤ power := by
      simp only [Power.le_iff_rank_le] at hunary hpower ⊢
      omega
    rw [operatorsLanguage, if_neg hcontinue, ← mul_assoc]
    exact mul_le_mul_left continuations_mul_le beyond

/-- A kind that binds no tighter than the power being read starts nothing but what lies beyond. -/
theorem Closes.leave {power : Power} (h : Closes power beyond)
    (hkind : (operatorPower? kind).getD .lowest ≤ power) (word : List TokenKind) :
    kind :: word ∈ operatorsLanguage power * beyond ↔ kind :: word ∈ beyond := by
  have hsuffix : kind ∉ suffixStarts := by
    intro hmem
    have htight : ∀ kind ∈ suffixStarts, ¬ (operatorPower? kind).getD .lowest ≤ .unary := by decide
    exact htight kind hmem (Nat.le_trans hkind h.le_unary)
  by_cases hunary : .unary ≤ power
  · rw [operatorsLanguage, if_pos hunary]
    exact cons_mem_phrase_mul_of_not_mem hsuffix rfl
  · rw [operatorsLanguage, if_neg hunary]
    by_cases hlowest : power ≤ .lowest
    · have hoperator : kind ∉ binaryOperators := by
        intro hmem
        have hbinds : ∀ kind ∈ binaryOperators, ¬ (operatorPower? kind).getD .lowest ≤ .lowest := by
          decide
        exact hbinds kind hmem (Nat.le_trans hkind hlowest)
      rw [continuations_eq, mul_assoc, cons_mem_phrase_mul_of_not_mem hsuffix rfl,
        cons_mem_phrase_mul_of_not_mem hoperator rfl]
    · constructor
      · exact fun hword ↦ h.absorbs hlowest hunary hword
      · exact fun hword ↦ mul_le_mul_left one_le_continuations beyond (by rwa [one_mul])

end

end Decaf
