import Decaf.Proofs.Recognizer.Functions
import Decaf.Proofs.Recognizer.Margin

/-!
# Programs at the limit on nesting

Parentheses, signs and blocks that nest any number of times. What a body of this form takes in
levels is counted twice: the goals for it are worked off in so many levels, and with one fewer they
go beyond the last at a place that can be named. Both counts are inductions on the number of
openers. `parse_nesting_limit` joins them to the margins that hold for all programs.
-/

namespace Decaf

/-- An atom in a number of parentheses. -/
def parenthesized (count : Nat) : List TokenKind :=
  List.replicate count .openParen ++ .intLiteral :: List.replicate count .closeParen

/-- An atom behind a number of signs. -/
def negated (count : Nat) : List TokenKind :=
  List.replicate count .minus ++ [.intLiteral]

/-- A number of blocks, each in the one before it. -/
def nestedBlocks (count : Nat) : List TokenKind :=
  List.replicate count .openCurly ++ List.replicate count .closeCurly

/-- The rest of the body of a function that assigns a value to a variable. -/
def assigning (value : List TokenKind) : List TokenKind :=
  .identifier :: .assign :: (value ++ [.semicolon, .closeCurly])

section

variable {levels count : Nat} {kind : TokenKind} {ahead left value : List TokenKind}
  {rest : List Goal}

/-! ## Levels that are enough -/

/-- An atom alone opens no level. -/
theorem atom_operand_yields (hkind : kind ∈ atoms) : OperandYields levels [kind] :=
  OperandYields.of_suffixes ((atom_yields hkind).mono (Nat.zero_le levels)) .nil

/-- Every pair of parentheses takes a level. -/
theorem parenthesized_yields (count : Nat) : OperandYields count (parenthesized count) := by
  induction count with
  | zero => exact atom_operand_yields (by decide)
  | succ count ih =>
      have hgroup := group_yields (operand_expression_yields ih)
      have hsame : parenthesized (count + 1) =
          .openParen :: (parenthesized count ++ [TokenKind.closeParen]) ++ [] := by
        simp [parenthesized, List.replicate_succ, ← List.replicate_succ']
      rw [hsame]
      exact OperandYields.of_suffixes hgroup .nil

/-- Every sign takes a level. -/
theorem negated_yields (count : Nat) : OperandYields count (negated count) := by
  induction count with
  | zero => exact atom_operand_yields (by decide)
  | succ count ih => exact signed_yields (by decide) ih

/-- The value of an assignment is read two levels deeper. -/
theorem assignment_yields (h : OperandYields levels value) :
    Yields (levels + 2) [.expression] [] (Stops .lowest) (.identifier :: .assign :: value) := by
  have hend : Yields (levels + 1) [.operators .lowest] [] (Stops .lowest) [] :=
    fun _ _ _ _ _ hafter hclears ↦ hafter.clears hclears
  have hright : Yields (levels + 1) [.operators .lowest] [] (Stops .lowest) (.assign :: value) := by
    refine .expand (move_operators_rule rfl (by decide)) (.expand rfl (.any (by decide) ?_))
    have hvalue := Yields.cons (operand_expression_yields h) hend fun _ hafter ↦ hafter
    rwa [List.append_nil] at hvalue
  exact expression_yields (by decide) (atom_operand_yields (by decide)) hright
    fun after _ ↦ ⟨.assign, _, rfl, by decide⟩

/-- There may be no statements in a block. -/
theorem no_statements_yield : Yields levels [.statements] [] (StartsWith .closeCurly) [] := by
  rintro more _ left rest - ⟨behind, rfl⟩ h
  exact .shift (.expand rfl) h

/-- Every block takes a level. -/
theorem nested_blocks_yield (count : Nat) :
    Yields count [.statements] [] (StartsWith .closeCurly) (nestedBlocks count) := by
  induction count with
  | zero => exact no_statements_yield
  | succ count ih =>
      have hclose : Yields count [.expect .closeCurly] [] (fun _ ↦ True) [.closeCurly] :=
        .token (by decide) .nil
      have hblock : Yields count [.statementBody] [] (fun _ ↦ True)
          (.openCurly :: (nestedBlocks count ++ [TokenKind.closeCurly])) :=
        .expand (move_statement_rule rfl)
          (.expand rfl (.token (by decide) (.cons ih hclose fun after _ ↦ ⟨after, rfl⟩)))
      have hstatement : Yields (count + 1) [.rule .statement] [] (fun _ ↦ True)
          (.openCurly :: (nestedBlocks count ++ [TokenKind.closeCurly])) :=
        .nest rfl (by decide) hblock
      have hstatements := Yields.cons hstatement no_statements_yield fun _ _ ↦ trivial
      have hsame : nestedBlocks (count + 1) =
          .openCurly :: (nestedBlocks count ++ [TokenKind.closeCurly]) ++ [] := by
        simp [nestedBlocks, List.replicate_succ, ← List.replicate_succ']
      rw [hsame]
      exact .expand rfl hstatements

/-! ## Levels that are not -/

/-- Where the operand behind an opener is an expression of its own, one opener more than the levels
goes beyond the last level. -/
theorem opened_operand_exceeds {opener : TokenKind} {power : Power}
    (hopens : ∀ rest ahead, ∃ later, Relation.ReflTransGen Shift
      (.operand :: rest, opener :: ahead) (.graded .expression power :: later, ahead))
    (hkind : kind ≠ .endOfInput) (levels : Nat) (rest : List Goal) (ahead : List TokenKind) :
    Exceeds levels (.operand :: rest) (List.replicate (levels + 1) opener ++ kind :: ahead)
      (kind :: ahead) := by
  induction levels generalizing rest with
  | zero =>
      obtain ⟨later, hshifts⟩ := hopens rest (kind :: ahead)
      exact Exceeds.shifts hshifts (.here rfl hkind)
  | succ levels ih =>
      obtain ⟨later, hshifts⟩ := hopens rest (List.replicate (levels + 1) opener ++ kind :: ahead)
      exact Exceeds.shifts hshifts (.inside rfl (ih _))

/-- One block more than the levels goes beyond the last level. -/
theorem nested_blocks_exceed (hkind : kind ≠ .endOfInput) (hclose : kind ≠ .closeCurly)
    (levels : Nat) (rest : List Goal) (ahead : List TokenKind) :
    Exceeds levels (.statements :: rest)
      (List.replicate levels TokenKind.openCurly ++ kind :: ahead) (kind :: ahead) := by
  induction levels generalizing rest with
  | zero => exact .shift (.expand (if_neg hclose)) (.here rfl hkind)
  | succ levels ih =>
      refine .shift (.expand rfl) (.inside rfl (.shift (.expand (move_statement_rule rfl)) ?_))
      exact .shift (.expand rfl) (.shift (.take rfl (by decide)) (ih _))

/-- The value of an assignment is two levels deeper than its statement. -/
theorem assignment_exceeds
    (h : Exceeds levels [.operand, .operators .lowest] (kind :: ahead) left) :
    Exceeds (levels + 3) [.statements, .expect .closeCurly]
      (.identifier :: .assign :: kind :: ahead) left := by
  -- The statement and its expression are a level each, and the value is a third.
  refine .shift (.expand rfl) (.inside rfl (.shift (.expand (move_statement_expression rfl)) ?_))
  refine .inside rfl (.shift (.expand (move_operand_rule rfl)) (.shift (.expand rfl) ?_))
  refine .shift (.take rfl (by decide)) (.shift (.expand (move_operators_rule rfl (by decide))) ?_)
  exact .shift (.expand rfl) (.shift (.take rfl (by decide)) (.inside rfl h))

end

/-! ## What becomes of the programs -/

section

open Recognizer

variable {tokens : List Token} {file : String} {levels count index : Nat}

/-- A parse that fails accepts nothing. -/
theorem FailsDeep.not_accepted (h : FailsDeep tokens file index) {count : Nat} :
    (parse tokens file).2 ≠ .accepted count := by
  obtain ⟨-, token, -, hrejected⟩ := h
  rw [hrejected]
  exact nofun

/-- Where a number of openers within a limit is accepted, and more fail, the limit decides. -/
theorem accepted_iff_of_fails {limit : Nat}
    (hfew : count ≤ limit → (parse tokens file).2 = .accepted 1)
    (hmany : limit < count → FailsDeep tokens file index) :
    ((parse tokens file).2 = .accepted 1 ↔ count ≤ limit) ∧
      (limit < count → FailsDeep tokens file index) := by
  refine ⟨⟨fun haccepted ↦ ?_, hfew⟩, hmany⟩
  by_contra hlimit
  exact (hmany (Nat.lt_of_not_le hlimit)).not_accepted haccepted

/-- A value behind too many openers fails behind as many as there are levels. -/
theorem parse_assigning_fails {opener kind : TokenKind} {power : Power} {behind : List TokenKind}
    (hopens : ∀ rest ahead, ∃ later, Relation.ReflTransGen Shift
      (.operand :: rest, opener :: ahead) (.graded .expression power :: later, ahead))
    (hkind : kind ≠ .endOfInput) (hlevels : levels + 3 = nestingLimit)
    (hkinds : tokens.map Token.kind = functionStart ++
      assigning (List.replicate (levels + 1) opener ++ kind :: behind)) (file : String) :
    FailsDeep tokens file (levels + 8) := by
  have hvalue := assignment_exceeds
    (opened_operand_exceeds hopens hkind levels [.operators .lowest]
      (behind ++ [TokenKind.semicolon, .closeCurly, .endOfInput]))
  rw [hlevels] at hvalue
  have hbody :
      assigning (List.replicate (levels + 1) opener ++ kind :: behind) ++ [TokenKind.endOfInput] =
        (TokenKind.identifier :: .assign :: List.replicate (levels + 1) opener) ++
          kind :: (behind ++ [TokenKind.semicolon, .closeCurly, .endOfInput]) := by
    simp [assigning]
  have hfails := parse_of_exceeds hkinds hbody hvalue file
  have hindex : functionStart.length +
      (TokenKind.identifier :: .assign :: List.replicate (levels + 1) opener).length =
        levels + 8 := by
    simp only [functionStart, List.length_cons, List.length_nil, List.length_replicate]
    omega
  rwa [hindex] at hfails

/-- What stands behind some openers in front of a kind starts with an opener or with the kind. -/
theorem replicate_append_cons {opener kind : TokenKind} (hopener : opener ≠ .endOfInput)
    (hkind : kind ≠ .endOfInput) (count : Nat) (behind : List TokenKind) :
    ∃ first rest, first ≠ .endOfInput ∧
      List.replicate count opener ++ kind :: behind = first :: rest := by
  cases count with
  | zero => exact ⟨kind, behind, hkind, rfl⟩
  | succ count => exact ⟨opener, List.replicate count opener ++ kind :: behind, hopener, rfl⟩

/-- A value behind openers, each of which takes a level, is accepted up to the limit and fails
beyond it. -/
theorem parse_assigning {opener kind : TokenKind} {power : Power} {behind : List TokenKind}
    (hopens : ∀ rest ahead, ∃ later, Relation.ReflTransGen Shift
      (.operand :: rest, opener :: ahead) (.graded .expression power :: later, ahead))
    (hopener : opener ≠ .endOfInput) (hkind : kind ≠ .endOfInput)
    (hyields : OperandYields count (List.replicate count opener ++ kind :: behind))
    (hkinds : tokens.map Token.kind = functionStart ++
      assigning (List.replicate count opener ++ kind :: behind)) (file : String) :
    ((parse tokens file).2 = .accepted 1 ↔ count ≤ 253) ∧
      (253 < count → FailsDeep tokens file 261) := by
  refine accepted_iff_of_fails (fun hfew ↦ ?_) fun hmany ↦ ?_
  · have hlevels : count + 3 ≤ nestingLimit := Nat.add_le_add_right hfew 3
    exact (parse_of_clears hkinds
      (expression_body_clears (by decide) (assignment_yields hyields)) hlevels file).1
  · obtain ⟨more, rfl⟩ := Nat.exists_eq_add_of_le hmany
    obtain ⟨first, rest, hfirst, hrest⟩ := replicate_append_cons hopener hkind more behind
    rw [List.replicate_add, List.append_assoc, hrest] at hkinds
    exact parse_assigning_fails hopens hfirst rfl hkinds file

/-- A statement in more blocks than there are levels fails behind them. -/
theorem parse_blocks_fail {kind : TokenKind} {behind : List TokenKind} (hkind : kind ≠ .endOfInput)
    (hclose : kind ≠ .closeCurly)
    (hkinds : tokens.map Token.kind =
      functionStart ++ (List.replicate nestingLimit TokenKind.openCurly ++ kind :: behind))
    (file : String) : FailsDeep tokens file 261 := by
  have hblocks := nested_blocks_exceed hkind hclose nestingLimit [.expect .closeCurly]
    (behind ++ [.endOfInput])
  have hfails := parse_of_exceeds hkinds (by simp) hblocks file
  rwa [List.length_replicate] at hfails

/-- Nested blocks are accepted up to the limit and fail beyond it. -/
theorem parse_nested_blocks
    (hkinds : tokens.map Token.kind =
      functionStart ++ (nestedBlocks count ++ [TokenKind.closeCurly])) (file : String) :
    ((parse tokens file).2 = .accepted 1 ↔ count ≤ 256) ∧
      (256 < count → FailsDeep tokens file 261) := by
  refine accepted_iff_of_fails (fun hfew ↦ ?_) fun hmany ↦ ?_
  · have hend : Clears count [.expect .closeCurly] [.closeCurly, .endOfInput] [.endOfInput] :=
      .shift (.take rfl (by decide)) .done
    have hblocks := nested_blocks_yield count (Nat.le_refl count) ⟨_, rfl⟩ hend
    refine (parse_of_clears hkinds ?_ hfew file).1
    rwa [List.append_assoc]
  · obtain ⟨more, rfl⟩ : ∃ more, count = nestingLimit + (more + 1) := Nat.exists_eq_add_of_lt hmany
    simp only [nestedBlocks, List.replicate_add nestingLimit, List.replicate_succ,
      List.append_assoc, List.cons_append] at hkinds
    exact parse_blocks_fail (by decide) (by decide) hkinds file

/-- A parse that is rejected for the limit on nesting has at least 260 tokens in front of the
error. -/
theorem parse_deep {error : Diagnostic} {lexeme : String}
    (h : (parse tokens file).2 = .rejected error)
    (hcause : error.cause = .unexpectedToken lexeme (some "nesting too deep")) :
    ∃ index, 260 ≤ index ∧ FailsDeep tokens file index := by
  have hparse : (ready tokens file).declarations 0 = ((parse tokens file).1, .rejected error) :=
    Prod.ext rfl h
  obtain ⟨start, hdeclares, hrun⟩ := declaration_of_rejected hparse
  obtain ⟨htables, hends, hdepth⟩ :=
    declares_keep (tables_ready tokens file) (ends_input_ready tokens file) hdeclares
  have hindex := index_of_nesting htables hends (hdepth.trans (depth_ready tokens file)) hrun hcause
  obtain ⟨reason, rfl⟩ := declarations_rejected hparse
  obtain ⟨hkind, rfl⟩ := unexpected_cause hcause
  exact ⟨_, hindex, fails_deep_of_rejected h hkind⟩

/-- An expression in parentheses opens its level behind the first of them. -/
theorem paren_opens (rest : List Goal) (ahead : List TokenKind) :
    ∃ later, Relation.ReflTransGen Shift (.operand :: rest, .openParen :: ahead)
      (.expression :: later, ahead) :=
  ⟨_, .head (.expand (move_operand_rule rfl))
    (.head (.expand rfl) (.single (.take rfl (by decide))))⟩

/-- An operand behind a sign opens its level behind it. -/
theorem minus_opens (rest : List Goal) (ahead : List TokenKind) :
    ∃ later, Relation.ReflTransGen Shift (.operand :: rest, .minus :: ahead)
      (.graded .expression .unary :: later, ahead) :=
  ⟨_, .head (.expand (move_operand_rule rfl))
    (.head (.expand rfl) (.single (.take rfl (by decide))))⟩

/-- The limit on nesting is met where it should be. Nothing is rejected for it unless there are 260
tokens in front of the error. Parentheses and signs are accepted in the value of an assignment as
long as they are no more than 253, or else the parse fails behind the first that is too many, and
nested blocks as long as they are no more than 256, or else it fails at the first that is too many.
Both places are behind 261 tokens: five start the function, and two the assignment. -/
theorem parse_nesting_limit (tokens : List Token) (file : String) :
    (∀ error lexeme, (parse tokens file).2 = .rejected error →
      error.cause = .unexpectedToken lexeme (some "nesting too deep") →
        ∃ index, 260 ≤ index ∧ FailsDeep tokens file index) ∧
    ∀ count : Nat,
      (tokens.map Token.kind = functionStart ++ assigning (parenthesized count) →
        ((parse tokens file).2 = .accepted 1 ↔ count ≤ 253) ∧
          (253 < count → FailsDeep tokens file 261)) ∧
      (tokens.map Token.kind = functionStart ++ assigning (negated count) →
        ((parse tokens file).2 = .accepted 1 ↔ count ≤ 253) ∧
          (253 < count → FailsDeep tokens file 261)) ∧
      (tokens.map Token.kind = functionStart ++ (nestedBlocks count ++ [TokenKind.closeCurly]) →
        ((parse tokens file).2 = .accepted 1 ↔ count ≤ 256) ∧
          (256 < count → FailsDeep tokens file 261)) := by
  refine ⟨fun error lexeme h hcause ↦ parse_deep h hcause, fun count ↦ ⟨fun hkinds ↦ ?_,
    fun hkinds ↦ ?_, fun hkinds ↦ parse_nested_blocks hkinds file⟩⟩
  · exact parse_assigning paren_opens (by decide) (by decide) (parenthesized_yields count) hkinds
      file
  · exact parse_assigning minus_opens (by decide) (by decide) (negated_yields count) hkinds file

/-- An atom in 253 parentheses is accepted, and in one more it fails behind the last of them. -/
theorem parse_nesting_limit_parentheses :
    let tokens := fun count ↦ (functionStart ++ assigning (parenthesized count)).map bareToken
    (parse (tokens 253) "").2 = .accepted 1 ∧ FailsDeep (tokens 254) "" 261 ∧
      ∃ index, 260 ≤ index ∧ FailsDeep (tokens 254) "" index := by
  intro tokens
  have hfew := ((parse_nesting_limit (tokens 253) "").2 253).1 (map_bare_token _)
  have hmany := ((parse_nesting_limit (tokens 254) "").2 254).1 (map_bare_token _)
  have hfails := hmany.2 (by decide)
  obtain ⟨-, token, -, hrejected⟩ := hfails
  exact ⟨hfew.1.mpr (by decide), hmany.2 (by decide),
    (parse_nesting_limit (tokens 254) "").1 _ _ hrejected rfl⟩

end

end Decaf
