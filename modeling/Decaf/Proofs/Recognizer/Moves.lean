import Decaf.Proofs.Recognizer.Operators

/-!
# Moves are exact

A move in front of a token neither loses nor adds a word that starts with this token: what the goal
stands for and what it gives way to agree there, and a goal refuses a token only if no word starts
with it. `move_exact` says so for every goal that fits in front of what follows, and that the goals
given way to fit again. Rules that give way without looking agree on all words; goals that look at
one kind are settled by the leaders of their phrase. Operators are the one case where a goal leaves
something to goals further down: `Resumes.operators_mul` finds the operator that stands there, and
`mem_operators_mul_of_rule` puts it back.
-/

namespace Decaf

/-- A move of a goal that keeps the words starting with the kind in front of it. A goal that opens
a level of nesting never stands in front of the end of input. -/
def Move.Exact (kind : TokenKind) (goal : Goal) (beyond : Language TokenKind) : Move → Prop
  | .take => ∀ word, kind :: word ∈ goal.language * beyond ↔ word ∈ beyond
  | .expand goals =>
    (∀ word, kind :: word ∈ goal.language * beyond ↔ kind :: word ∈ agendaLanguage goals beyond) ∧
      Orderly goals beyond
  | .nest goals =>
    goal.language * beyond = agendaLanguage goals beyond ∧ Orderly (goals ++ [.surface]) beyond ∧
      ∀ word, .endOfInput :: word ∉ goal.language * beyond
  | .surface => goal.language * beyond = beyond
  | .refuse _ => ∀ word, kind :: word ∉ goal.language * beyond

/-- A goal may always give way to goals with the same words. -/
theorem Move.exact_of_eq {kind : TokenKind} {goal : Goal} {goals : List Goal}
    {beyond : Language TokenKind} (h : goal.language * beyond = agendaLanguage goals beyond)
    (horderly : Orderly goals beyond) : (Move.expand goals).Exact kind goal beyond :=
  ⟨fun word ↦ by rw [h], horderly⟩

/-- A goal for a phrase that may be left out gives way to nothing in front of a kind that starts no
word of it. -/
theorem Move.exact_skip {kind : TokenKind} {goal : Goal} {beyond : Language TokenKind}
    {category : Category} (hgoal : goal.language = words [.phrase category])
    (hkind : kind ∉ category.leaders) (herase : category.isErasable = true) :
    (Move.expand []).Exact kind goal beyond := by
  refine ⟨fun word ↦ ?_, trivial⟩
  rw [hgoal]
  exact cons_mem_phrase_mul_of_not_mem hkind herase

/-- A goal for a phrase that may be left out gives way to the goals of the phrase in front of a kind
that starts nothing beyond it. -/
theorem Move.exact_enter {kind : TokenKind} {goal : Goal} {goals : List Goal}
    {beyond : Language TokenKind} {category : Category} {symbols : List Symbol}
    (hgoal : goal.language = words [.phrase category])
    (hpair : productions category = [[], symbols]) (hbeyond : ∀ word, kind :: word ∉ beyond)
    (hgoals : ∀ word, kind :: word ∈ words symbols * beyond ↔
      kind :: word ∈ agendaLanguage goals beyond)
    (horderly : Orderly goals beyond) : (Move.expand goals).Exact kind goal beyond := by
  refine ⟨fun word ↦ ?_, horderly⟩
  rw [hgoal]
  exact (cons_mem_phrase_mul_of_pair hpair (hbeyond word)).trans (hgoals word)

/-- At the lowest power an expression is read to its end. -/
theorem expression_language_lowest :
    expressionLanguage .lowest = words [.phrase .expression] :=
  if_neg (by decide)

/-- At the power of a sign only an operand is read. -/
theorem expression_language_unary :
    expressionLanguage .unary = words [.phrase .operand] :=
  if_pos (by decide)

/-- Any expression may stand in front of what it leaves no operator to. -/
theorem Resumes.closes_lowest {language : Language TokenKind} (h : Resumes language) :
    Closes .lowest language where
  le_unary := by decide
  resumes := h
  absorbs hlowest := absurd (by decide) hlowest

/-- A sign may stand in front of what its operand leaves no suffix to. -/
theorem Resumes.closes_unary {language : Language TokenKind} (h : Resumes language) :
    Closes .unary language where
  le_unary := by decide
  resumes := h
  absorbs _ hunary := absurd (by decide) hunary

/-- A name follows a whole type. -/
theorem closes_type_mul (rest : List Symbol) (language : Language TokenKind) :
    ClosesType .lowest (words (.token .identifier :: rest) * language) where
  eq_lowest := rfl
  led_by := led_by_words_mul rfl

/-! ## Plain rules -/

section

variable {kind : TokenKind} {beyond : Language TokenKind}

/-- A declaration is a type, a name and a tail. -/
theorem words_declaration :
    words [.phrase .declaration] =
      words [.phrase .type] * (words [.token .identifier] * Goal.declarationTail.language) := by
  rw [words_phrase, productions, List.map_cons, List.map_cons, List.map_nil, List.sum_cons,
    List.sum_cons, List.sum_nil, add_zero, Goal.language, mul_add, mul_add]
  simp only [← words_append, List.cons_append, List.nil_append]

/-- The keywords that name a type are those that open a declaration. -/
theorem mem_type_keywords {kind : TokenKind} : kind ∈ typeKeywords ↔ kind.isTypeKeyword = true := by
  cases kind <;> decide

/-- Plain rules are exact. -/
theorem rule_move_exact {rule : Rule} (h : rule.Fits beyond) :
    (rule.move kind).Exact kind (.rule rule) beyond := by
  cases rule with
  | declaration =>
      simp only [Rule.move]
      split
      · refine Move.exact_of_eq ?_ ⟨closes_type_mul [] _, trivial, trivial, trivial⟩
        show words [.phrase .declaration] * beyond = _
        rw [words_declaration, mul_assoc, mul_assoc]
        rfl
      · next hkind =>
        intro word
        exact not_cons_mem_phrase_mul (by rwa [Category.leaders, mem_type_keywords]) rfl
  | statement =>
      refine ⟨?_, ⟨?_, trivial, trivial⟩, fun word ↦ not_cons_mem_phrase_mul (by decide) rfl⟩
      · rfl
      · show ElseBinds (1 * beyond)
        rwa [one_mul]
  | variableStatement =>
      refine Move.exact_of_eq ?_ ⟨closes_type_mul [] _, trivial, trivial, trivial⟩
      show words [.phrase .type, .token .identifier, .token .semicolon] * beyond = _
      rw [words_cons_cons_mul, words_cons_cons_mul]
      rfl
  | block =>
      refine Move.exact_of_eq ?_ ⟨trivial, led_by_words_mul rfl, trivial, trivial⟩
      show words [.phrase .block] * beyond = _
      rw [words_phrase_single rfl, words_cons_cons_mul, words_cons_cons_mul]
      rfl
  | ifStatement =>
      -- Behind the first branch an `else` may follow even where none may follow the statement.
      refine Move.exact_of_eq ?_
        ⟨trivial, trivial, closes_token_mul (by decide), trivial, ElseBinds.optional_mul h, h,
          trivial⟩
      show anyKind * (words _ * optional _) * beyond = _
      rw [mul_assoc, mul_assoc, words_cons_cons_mul, words_cons_cons_mul, words_cons_cons_mul,
        ← expression_language_lowest]
      rfl
  | whileStatement =>
      refine Move.exact_of_eq ?_
        ⟨trivial, trivial, closes_token_mul (by decide), trivial, h, trivial⟩
      show anyKind * words _ * beyond = _
      rw [mul_assoc, words_cons_cons_mul, words_cons_cons_mul, words_cons_cons_mul,
        ← expression_language_lowest]
      rfl
  | forStatement =>
      refine Move.exact_of_eq ?_
        ⟨trivial, trivial, ⟨by decide, led_by_words_mul rfl⟩, trivial,
          ⟨by decide, led_by_words_mul rfl⟩, trivial, ⟨by decide, led_by_words_mul rfl⟩, trivial, h,
          trivial⟩
      show anyKind * words _ * beyond = _
      rw [mul_assoc, words_cons_cons_mul, words_cons_cons_mul, words_cons_cons_mul,
        words_cons_cons_mul, words_cons_cons_mul, words_cons_cons_mul, words_cons_cons_mul]
      rfl
  | returnStatement =>
      refine Move.exact_of_eq ?_ ⟨trivial, ⟨by decide, led_by_words_mul rfl⟩, trivial, trivial⟩
      show anyKind * words _ * beyond = _
      rw [mul_assoc, words_cons_cons_mul]
      rfl
  | jumpStatement =>
      refine Move.exact_of_eq ?_ ⟨trivial, trivial, trivial⟩
      exact mul_assoc _ _ _
  | printStatement =>
      refine Move.exact_of_eq ?_ ⟨trivial, trivial, led_by_words_mul rfl, trivial, trivial, trivial⟩
      show anyKind * words _ * beyond = _
      rw [mul_assoc, words_cons_cons_mul, words_cons_cons_mul, words_cons_cons_mul]
      rfl
  | atom | keywordType => exact Move.exact_of_eq rfl ⟨trivial, trivial⟩
  | signed =>
      refine Move.exact_of_eq ?_ ⟨trivial, Resumes.closes_unary h, trivial⟩
      show anyKind * words [.phrase .operand] * beyond = _
      rw [mul_assoc, ← expression_language_unary]
      rfl
  | grouping =>
      refine Move.exact_of_eq ?_ ⟨trivial, closes_token_mul (by decide), trivial, trivial⟩
      show words [.token .openParen, .phrase .expression, .token .closeParen] * beyond = _
      rw [words_cons_cons_mul, words_cons_cons_mul, ← expression_language_lowest]
      rfl
  | arguments =>
      have hbeyond : LedBy [.closeParen] beyond := h
      simp only [Rule.move]
      -- Nothing but a closing parenthesis follows, so any other kind starts an argument.
      split
      · next hkind => exact Move.exact_skip rfl (by rw [hkind]; decide) rfl
      · next hkind =>
        refine Move.exact_enter rfl rfl (fun _ ↦ hbeyond.not_mem (by simpa using hkind))
          (fun word ↦ ?_) ⟨hbeyond.phrase_mul.closes (by decide), hbeyond, trivial⟩
        rw [words_cons_cons_mul, ← expression_language_lowest]
        rfl

/-! ## Operators -/

/-- The operators behind an operand are exact. -/
theorem operators_move_exact {power : Power} (h : Closes power beyond) :
    (Tables.standard.move kind (.operators power)).Exact kind (.operators power) beyond := by
  simp only [Tables.move, standard_eq, Tables.continueAt]
  split
  · next hkind => exact ⟨h.leave hkind, trivial⟩
  · next hkind =>
    obtain ⟨binding, hbinding⟩ : ∃ binding, operatorPower? kind = some binding := by
      cases hpower : operatorPower? kind with
      | none =>
          rw [hpower] at hkind
          exact absurd (Nat.zero_le power.rank) hkind
      | some binding => exact ⟨binding, rfl⟩
    rw [hbinding, Option.getD_some] at hkind
    have hlowest : ¬ binding ≤ .lowest := fun hle ↦ hkind (Nat.le_trans hle (Nat.zero_le _))
    have hresumes := h.resumes.operators_mul power
    cases hrule : operatorRule? kind with
    -- A kind that binds without a rule only starts operands, and none may follow here.
    | none =>
        intro word hword
        obtain ⟨rule, hfound, -⟩ := hresumes hword hbinding hlowest
        rw [hrule] at hfound
        cases hfound
    | some rule =>
        rw [hbinding, Option.getD_some]
        refine ⟨fun word ↦ ⟨fun hword ↦ ?_, mem_operators_mul_of_rule hrule hbinding hkind⟩, ?_, h,
          trivial⟩
        · obtain ⟨found, hfound, hmem⟩ := hresumes hword hbinding hlowest
          obtain rfl : found = rule := Option.some.inj (hfound.symm.trans hrule)
          exact hmem
        · show rule.Fits binding (operatorsLanguage power * beyond)
          by_cases hoperator : kind ∈ binaryOperators
          · obtain ⟨hform, hunary⟩ := binary_entry hoperator hrule hbinding
            rcases hform with rfl | rfl
            · exact h.operators_mul hunary hkind
            · exact hresumes
          · rcases suffix_entry hrule hoperator with rfl | rfl | rfl
            · trivial
            · trivial
            · trivial

/-! ## Graded rules -/

/-- Graded rules are exact. -/
theorem graded_move_exact {rule : GradedRule} {power : Power} (h : rule.Fits power beyond) :
    (rule.move power).Exact kind (.graded rule power) beyond := by
  cases rule with
  | expression =>
      have hcloses : Closes power beyond := h
      refine ⟨?_, ⟨⟨?_, ?_⟩, ?_, trivial, trivial⟩, fun word ↦ ?_⟩
      · show expressionLanguage power * beyond = _
        rw [← operand_mul_operators, mul_assoc]
        rfl
      · show words [.phrase .postfixes] * (operatorsLanguage power * (1 * beyond)) ≤
          operatorsLanguage power * (1 * beyond)
        rw [← mul_assoc, postfixes_mul_operators]
      · show Resumes (operatorsLanguage power * (1 * beyond))
        rw [one_mul]
        exact hcloses.resumes.operators_mul power
      · show Closes power (1 * beyond)
        rwa [one_mul]
      · show .endOfInput :: word ∉ expressionLanguage power * beyond
        unfold expressionLanguage
        split
        · exact not_cons_mem_phrase_mul (by decide) rfl
        · exact not_cons_mem_phrase_mul (by decide) rfl
  | binary =>
      refine Move.exact_of_eq ?_ ⟨trivial, h, trivial⟩
      exact mul_assoc anyKind (expressionLanguage power) beyond
  | assignment =>
      refine Move.exact_of_eq ?_ ⟨trivial, Resumes.closes_lowest h, trivial⟩
      show anyKind * words [.phrase .expression] * beyond = _
      rw [mul_assoc, ← expression_language_lowest]
      rfl
  | call =>
      refine Move.exact_of_eq ?_ ⟨trivial, led_by_words_mul rfl, trivial, trivial⟩
      show words [.token .openParen, .phrase .arguments, .token .closeParen] * beyond = _
      rw [words_cons_cons_mul, words_cons_cons_mul]
      rfl
  | index =>
      refine Move.exact_of_eq ?_ ⟨trivial, closes_token_mul (by decide), trivial, trivial⟩
      show words [.token .openBracket, .phrase .expression, .token .closeBracket] * beyond = _
      rw [words_cons_cons_mul, words_cons_cons_mul, ← expression_language_lowest]
      rfl
  | member =>
      refine Move.exact_of_eq ?_ ⟨trivial, trivial, trivial⟩
      exact words_cons_cons_mul (.token .dot) (.token .identifier) []
  | type =>
      refine Move.exact_of_eq ?_ ⟨trivial, h, trivial⟩
      show words [.phrase .type] * beyond = _
      rw [words_phrase, productions, sum_words_tokens, mul_assoc]
      rfl
  | arrayType =>
      refine Move.exact_of_eq ?_ ⟨trivial, led_by_words_mul rfl, trivial, trivial⟩
      show words [.token .openBracket] * (optional _ * words _) * beyond = _
      rw [mul_assoc, mul_assoc]
      rfl

/-! ## Goals that look at one kind -/

/-- An `if` statement may go on with an `else`. -/
theorem cons_mem_if_mul {word : List TokenKind} :
    .ifWord :: word ∈ words [.phrase .statement] * beyond ↔
      .ifWord :: word ∈ Rule.ifStatement.language * beyond := by
  have hchoices : choices .statement .ifWord =
      [[.token .ifWord, .token .openParen, .phrase .expression, .token .closeParen,
        .phrase .statement],
      [.token .ifWord, .token .openParen, .phrase .expression, .token .closeParen,
        .phrase .statement, .token .elseWord, .phrase .statement]] := rfl
  have helse : words [.token .openParen, .phrase .expression, .token .closeParen,
        .phrase .statement, .token .elseWord, .phrase .statement] =
      words [.token .openParen, .phrase .expression, .token .closeParen, .phrase .statement] *
        words [.token .elseWord, .phrase .statement] :=
    words_append [_, _, _, _] [_, _]
  rw [cons_mem_phrase_mul, hchoices, Rule.language, optional, mul_assoc, cons_mem_any_mul, mul_add,
    mul_one, add_mul, Language.mem_add, ← helse]
  simp [cons_mem_token_mul, Category.isErasable]

/-- The rule for a statement reads what its first kind allows. -/
theorem statement_entry {rule : Rule} (h : statementRule? kind = some rule)
    (word : List TokenKind) :
    kind :: word ∈ words [.phrase .statement] * beyond ↔ kind :: word ∈ rule.language * beyond := by
  cases kind with
  | intType | boolType | stringType | voidType | openCurly =>
      cases h
      exact cons_mem_phrase_mul_of_choice rfl rfl
  | ifWord =>
      cases h
      exact cons_mem_if_mul
  | whileWord | forWord | returnWord | breakWord | continueWord | printWord =>
      cases h
      exact (cons_mem_phrase_mul_of_choice rfl rfl).trans cons_mem_token_mul_self
  | _ => cases h

/-- A kind without a rule for statements can only start an expression. -/
theorem statement_entry_none (h : statementRule? kind = none) (word : List TokenKind) :
    kind :: word ∈ words [.phrase .statement] * beyond ↔
      kind :: word ∈ words [.phrase .expression, .token .semicolon] * beyond := by
  by_cases hkind : kind ∈ operandStarts
  · refine cons_mem_phrase_mul_of_choice ?_ rfl
    revert h hkind
    cases kind <;> decide
  · have hleaders : kind ∉ Category.statement.leaders := by
      revert h hkind
      cases kind <;> decide
    rw [words_cons_cons_mul]
    exact iff_of_false (not_cons_mem_phrase_mul hleaders rfl) (not_cons_mem_phrase_mul hkind rfl)

/-- The bodies of statements are exact. -/
theorem statement_body_move_exact (h : ElseBinds beyond) :
    (Tables.standard.move kind .statementBody).Exact kind .statementBody beyond := by
  simp only [Tables.move, standard_eq]
  split
  · next rule hrule =>
    refine ⟨statement_entry hrule, ?_, trivial⟩
    show rule.Fits beyond
    cases rule with
    | statement | ifStatement | whileStatement | forStatement => exact h
    | arguments | signed => cases kind <;> cases hrule
    | _ => trivial
  · next hrule =>
    refine ⟨fun word ↦ ?_, closes_token_mul (by decide), trivial, trivial⟩
    refine (statement_entry_none hrule word).trans ?_
    rw [words_cons_cons_mul, ← expression_language_lowest]
    rfl

/-- Operands are exact. -/
theorem operand_move_exact (h : Goal.operand.Fits beyond) :
    (Tables.standard.move kind .operand).Exact kind .operand beyond := by
  obtain ⟨hpostfixes, hresumes⟩ := h
  have habsorb : words [.phrase .postfixes] * beyond = beyond := by
    refine le_antisymm hpostfixes ?_
    calc beyond = 1 * beyond := (one_mul beyond).symm
      _ ≤ words [.phrase .postfixes] * beyond := mul_le_mul_left one_le_postfixes beyond
  simp only [Tables.move, standard_eq, Tables.enter]
  cases hrule : operandRule? kind with
  | none =>
      refine fun word ↦ not_cons_mem_phrase_mul ?_ rfl
      revert hrule
      cases kind <;> decide
  | some rule =>
      -- The production of an atom or a grouping ends in suffixes, which lie beyond the goal.
      cases kind with
      | intLiteral | stringLiteral | boolLiteral | nullWord | identifier =>
          cases hrule
          refine ⟨fun word ↦ (cons_mem_phrase_mul_of_choice rfl rfl).trans ?_, trivial, trivial⟩
          rw [cons_mem_token_mul_self, mul_assoc, habsorb]
          rfl
      | minus | not =>
          cases hrule
          refine ⟨fun word ↦ (cons_mem_phrase_mul_of_choice rfl rfl).trans ?_, hresumes, trivial⟩
          exact cons_mem_token_mul_self
      | openParen =>
          cases hrule
          refine ⟨fun word ↦ (cons_mem_phrase_mul_of_choice rfl rfl).trans ?_, trivial, trivial⟩
          have hgroup := words_append
            [.token .openParen, .phrase .expression, .token .closeParen] [.phrase .postfixes]
          rw [List.cons_append, List.cons_append, List.cons_append, List.nil_append] at hgroup
          rw [hgroup, mul_assoc, habsorb]
          rfl
      | _ => cases hrule

/-- The heads of types are exact. -/
theorem type_head_move_exact :
    (Tables.standard.move kind .typeHead).Exact kind .typeHead beyond := by
  simp only [Tables.move, standard_eq, Tables.enter]
  cases hrule : typeHeadRule? kind with
  | none =>
      intro word hword
      have hkind := (cons_mem_one_of_mul.mp hword).1
      revert hrule hkind
      cases kind <;> decide
  | some rule =>
      have hkind : kind ∈ typeKeywords ∧ rule = .keywordType := by
        revert hrule
        cases kind <;> simp [typeHeadRule?, typeKeywords, eq_comm]
      obtain ⟨hmem, rfl⟩ := hkind
      refine ⟨fun word ↦ ?_, trivial, trivial⟩
      show kind :: word ∈ oneOf typeKeywords * beyond ↔ kind :: word ∈ anyKind * beyond
      rw [cons_mem_one_of_mul, cons_mem_any_mul]
      exact and_iff_right hmem

/-- The suffix of a type in front of more suffixes. -/
theorem array_type_mul {power : Power} :
    GradedRule.arrayType.language power * words [.phrase .suffixes] =
      words [.token .openBracket, .token .closeBracket, .phrase .suffixes] +
        words [.token .openBracket, .token .intLiteral, .token .closeBracket,
          .phrase .suffixes] := by
  rw [GradedRule.language, optional, add_mul, one_mul, mul_add, add_mul]
  simp only [← words_append, List.cons_append, List.nil_append]

/-- The suffixes of types are exact. -/
theorem type_suffixes_move_exact {power : Power} (h : ClosesType power beyond) :
    (Tables.standard.move kind (.typeSuffixes power)).Exact kind (.typeSuffixes power) beyond := by
  obtain ⟨rfl, hbeyond⟩ := h
  by_cases hopen : kind = .openBracket
  · subst hopen
    have hchoices : choices .suffixes .openBracket =
        [[.token .openBracket, .token .closeBracket, .phrase .suffixes],
        [.token .openBracket, .token .intLiteral, .token .closeBracket, .phrase .suffixes]] := rfl
    rw [standard_eq]
    refine ⟨fun word ↦ ?_, trivial, ⟨rfl, hbeyond⟩, trivial⟩
    have hword : .openBracket :: word ∉ beyond := hbeyond.not_mem (by decide)
    show _ ↔ .openBracket :: word ∈
      GradedRule.arrayType.language .call * (words [.phrase .suffixes] * beyond)
    rw [← mul_assoc, array_type_mul, add_mul, Language.mem_add, Goal.language, cons_mem_phrase_mul,
      hchoices]
    simp [hword]
  · have hskip (word : List TokenKind) :
        kind :: word ∈ words [.phrase .suffixes] * beyond ↔ kind :: word ∈ beyond :=
      cons_mem_phrase_mul_of_not_mem (by simpa [Category.leaders] using hopen) rfl
    simp only [Tables.move, standard_eq, Tables.continueAt]
    split
    · exact ⟨hskip, trivial⟩
    · next hkind =>
      -- The other kinds that bind in types are type keywords, which follow no type.
      have hrule : typeSuffixRule? kind = none := by
        revert hopen
        cases kind <;> decide
      rw [hrule]
      intro word hword
      obtain rfl : kind = .identifier := List.mem_singleton.mp (hbeyond ((hskip word).mp hword))
      exact hkind (by decide)

/-- The tails of declarations are exact. -/
theorem declaration_tail_move_exact :
    (Tables.standard.move kind .declarationTail).Exact kind .declarationTail beyond := by
  have htail (word : List TokenKind) : kind :: word ∈ Goal.declarationTail.language * beyond ↔
      kind = .semicolon ∧ word ∈ beyond ∨
        kind = .openParen ∧
          word ∈ words [.phrase .parameters, .token .closeParen, .phrase .block] * beyond := by
    rw [Goal.language, add_mul, Language.mem_add, cons_mem_token_mul, cons_mem_token_mul,
      words_nil_mul]
  simp only [Tables.move]
  split
  · next hkind =>
    subst hkind
    refine ⟨fun word ↦ (htail word).trans ?_, trivial, led_by_words_mul rfl, trivial, trivial,
      trivial⟩
    show _ ↔ .openParen :: word ∈ words [.token .openParen] * (words [.phrase .parameters] *
      (words [.token .closeParen] * (words [.phrase .block] * beyond)))
    rw [cons_mem_token_mul, words_nil_mul, words_cons_cons_mul, words_cons_cons_mul]
    simp
  · next hkind =>
    refine ⟨fun word ↦ (htail word).trans ?_, trivial, trivial⟩
    show _ ↔ kind :: word ∈ words [.token .semicolon] * beyond
    rw [cons_mem_token_mul, words_nil_mul]
    simp [hkind]

/-- An `else` is taken by the innermost statement that can have it. -/
theorem else_branch_move_exact (h : ElseBinds beyond) :
    (Tables.standard.move kind .elseBranch).Exact kind .elseBranch beyond := by
  simp only [Tables.move]
  split
  · next hkind =>
    subst hkind
    refine ⟨fun word ↦ ?_, trivial, h, trivial⟩
    show .elseWord :: word ∈ optional _ * beyond ↔
      .elseWord :: word ∈ anyKind * (words [.phrase .statement] * beyond)
    rw [cons_mem_optional_mul, cons_mem_any_mul]
    constructor
    · rintro (⟨-, hrest⟩ | hrest)
      · exact hrest
      -- An `else` beyond this statement could as well have been its own.
      · exact (cons_mem_token_mul.mp (h hrest)).2
    · exact fun hrest ↦ Or.inl ⟨rfl, hrest⟩
  · next hkind =>
    refine ⟨fun word ↦ cons_mem_optional_mul.trans ?_, trivial⟩
    simp [hkind]

/-- The sizes of array types are exact. -/
theorem array_size_move_exact (h : LedBy [.closeBracket] beyond) :
    (Tables.standard.move kind .arraySize).Exact kind .arraySize beyond := by
  simp only [Tables.move]
  split
  · next hkind =>
    subst hkind
    refine ⟨fun word ↦ cons_mem_optional_mul.trans ?_, trivial, trivial⟩
    have hword : .intLiteral :: word ∉ beyond := h.not_mem (by decide)
    show _ ↔ .intLiteral :: word ∈ anyKind * beyond
    rw [cons_mem_any_mul, words_nil_mul]
    simp [hword]
  · next hkind =>
    refine ⟨fun word ↦ cons_mem_optional_mul.trans ?_, trivial⟩
    simp [hkind]

/-! ## All goals -/

/-- Every move of the standard tables is exact. -/
theorem move_exact (kind : TokenKind) {goal : Goal} (h : goal.Fits beyond) :
    (Tables.standard.move kind goal).Exact kind goal beyond := by
  cases goal with
  | token expected reason =>
      have htoken (word : List TokenKind) :
          kind :: word ∈ words [.token expected] * beyond ↔ kind = expected ∧ word ∈ beyond := by
        rw [cons_mem_token_mul, words_nil_mul]
      simp only [Tables.move]
      split
      · next hkind => exact fun word ↦ (htoken word).trans (and_iff_right hkind)
      · next hkind => exact fun word hword ↦ hkind ((htoken word).mp hword).1
  | anyToken => exact fun word ↦ cons_mem_any_mul
  | surface => exact one_mul beyond
  | rule rule => exact rule_move_exact h
  | graded rule power => exact graded_move_exact h
  | declarationTail => exact declaration_tail_move_exact
  | parameters =>
      have hbeyond : LedBy [.closeParen] beyond := h
      simp only [Tables.move]
      split
      · next hkind => exact Move.exact_skip rfl (by rw [hkind]; decide) rfl
      · next hkind =>
        refine Move.exact_enter rfl rfl (fun _ ↦ hbeyond.not_mem (by simpa using hkind))
          (fun word ↦ ?_) ⟨closes_type_mul [] _, trivial, hbeyond, trivial⟩
        rw [words_cons_cons_mul, words_cons_cons_mul]
        rfl
  | moreParameters =>
      have hbeyond : LedBy [.closeParen] beyond := h
      simp only [Tables.move]
      split
      · next hkind =>
        subst hkind
        refine Move.exact_enter rfl rfl (fun _ ↦ hbeyond.not_mem (by decide)) (fun word ↦ ?_)
          ⟨trivial, closes_type_mul [] _, trivial, hbeyond, trivial⟩
        rw [cons_mem_token_mul_self, mul_assoc, words_cons_cons_mul, words_cons_cons_mul]
        rfl
      · next hkind =>
        exact Move.exact_skip rfl (by simpa [Category.leaders] using hkind) rfl
  | variableTail =>
      simp only [Tables.move]
      split
      · next hkind =>
        subst hkind
        intro word hword
        cases (cons_mem_token_mul.mp hword).1
      · exact Move.exact_of_eq rfl ⟨trivial, trivial⟩
  | statementBody => exact statement_body_move_exact h
  | statements =>
      have hbeyond : LedBy [.closeCurly] beyond := h
      simp only [Tables.move]
      split
      · next hkind => exact Move.exact_skip rfl (by rw [hkind]; decide) rfl
      · next hkind =>
        refine Move.exact_enter rfl rfl (fun _ ↦ hbeyond.not_mem (by simpa using hkind))
          (fun word ↦ ?_) ⟨hbeyond.phrase_mul.else_binds (by decide), hbeyond, trivial⟩
        rw [words_cons_cons_mul]
        rfl
  | elseBranch => exact else_branch_move_exact h
  | expressionUnless stop =>
      obtain ⟨hstop, hbeyond⟩ : stop ∈ expressionEnds ∧ LedBy [stop] beyond := h
      simp only [Tables.move]
      split
      · next hkind =>
        have hends : ∀ stop ∈ expressionEnds, stop ∉ Category.optionalExpression.leaders := by
          decide
        exact Move.exact_skip rfl (hkind ▸ hends stop hstop) rfl
      · next hkind =>
        refine Move.exact_enter rfl rfl (fun _ ↦ hbeyond.not_mem (by simpa using hkind))
          (fun word ↦ ?_) ⟨hbeyond.closes (by simpa using hstop), trivial⟩
        rw [← expression_language_lowest]
        rfl
  | moreArguments =>
      have hbeyond : LedBy [.closeParen] beyond := h
      simp only [Tables.move]
      split
      · next hkind =>
        subst hkind
        refine Move.exact_enter rfl rfl (fun _ ↦ hbeyond.not_mem (by decide)) (fun word ↦ ?_)
          ⟨trivial, hbeyond.phrase_mul.closes (by decide), hbeyond, trivial⟩
        rw [cons_mem_token_mul_self, mul_assoc, words_cons_cons_mul, ← expression_language_lowest]
        rfl
      · next hkind =>
        exact Move.exact_skip rfl (by simpa [Category.leaders] using hkind) rfl
  | operand => exact operand_move_exact h
  | operators power => exact operators_move_exact h
  | typeHead => exact type_head_move_exact
  | typeSuffixes power => exact type_suffixes_move_exact h
  | arraySize => exact array_size_move_exact h

end

end Decaf
