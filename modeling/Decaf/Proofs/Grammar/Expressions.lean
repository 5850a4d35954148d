import Decaf.Proofs.Grammar.Words

/-!
# The language of expressions

Operands and expressions as regular combinations of their parts. `words_operand` and
`words_expression` solve the recursive productions by Arden's lemma: an operand is any number of
signs, a primary and any number of suffixes, and an expression is a chain of operands with binary
operators between them. How tightly the operators bind leaves no trace in this language, and
`continuations_mul_le` says why: what may follow an operand may follow it again.
-/

namespace Decaf

open Computability

/-- The language of operands without signs and suffixes: an atom or an expression in
parentheses. -/
def primary : Language TokenKind :=
  words [.token .openParen, .phrase .expression, .token .closeParen] + oneOf atoms

/-- The language of single suffixes: a member, a call or an index. -/
def oneSuffix : Language TokenKind :=
  words [.token .dot, .token .identifier] +
    (words [.token .openParen, .phrase .arguments, .token .closeParen] +
      words [.token .openBracket, .phrase .expression, .token .closeBracket])

/-- The language of operands: signs, a primary and suffixes. -/
def signedOperand : Language TokenKind :=
  (oneOf signOperators)∗ * (primary * oneSuffix∗)

/-- The language of what may follow an operand inside an expression. -/
def continuations : Language TokenKind :=
  words [.phrase .postfixes, .phrase .moreOperands]

/-- Single kinds of a longer list add to those of the shorter. -/
theorem one_of_cons (kind : TokenKind) (kinds : List TokenKind) :
    oneOf (kind :: kinds) = oneOf [kind] + oneOf kinds := by
  ext word
  rw [Language.mem_add, mem_one_of, mem_one_of, mem_one_of]
  simp

/-- Productions that differ in their first token alone start with one of these tokens. -/
theorem sum_words_tokens (kinds : List TokenKind) (rest : List Symbol) :
    ((kinds.map fun kind ↦ Symbol.token kind :: rest).map words).sum =
      oneOf kinds * words rest := by
  induction kinds with
  | nil =>
      ext word
      simp [Language.mem_mul, mem_one_of]
  | cons kind kinds ih =>
      rw [List.map_cons, List.map_cons, List.sum_cons, ih, words_cons, words_token,
        one_of_cons kind kinds, add_mul]

/-- No word of single kinds is empty. -/
theorem nil_not_mem_one_of (kinds : List TokenKind) : [] ∉ oneOf kinds := by
  intro hword
  obtain ⟨kind, -, h⟩ := hword
  cases h

/-- A sequence of symbols that cannot be erased has no empty word. -/
theorem nil_not_mem_words {symbols : List Symbol} (h : isErasable symbols = false) :
    [] ∉ words symbols := by
  intro hnil
  rw [Derives.erasable (mem_words.mp hnil)] at h
  cases h

/-- A product is empty only if its first factor is. -/
theorem nil_not_mem_mul {first second : Language TokenKind} (h : [] ∉ first) :
    [] ∉ first * second := by
  rw [Language.mem_mul]
  intro hword
  obtain ⟨left, hleft, right, -, heq⟩ := hword
  rw [(List.append_eq_nil_iff.mp heq).1] at hleft
  exact h hleft

/-- A suffix takes at least one token. -/
theorem nil_not_mem_one_suffix : [] ∉ oneSuffix := by
  rintro (h | h | h)
  · exact nil_not_mem_words rfl h
  · exact nil_not_mem_words rfl h
  · exact nil_not_mem_words rfl h

/-- Postfixes are any number of suffixes. -/
theorem words_postfixes : words [.phrase .postfixes] = oneSuffix∗ := by
  have hunfold : words [.phrase .postfixes] = oneSuffix * words [.phrase .postfixes] + 1 := by
    conv_lhs => rw [words_phrase]
    simp only [productions, List.map_cons, List.map_nil, List.sum_cons, List.sum_nil, add_zero,
      words_nil]
    rw [add_comm, oneSuffix, add_mul, add_mul]
    simp only [← words_append, List.cons_append, List.nil_append]
  rw [(Language.self_eq_mul_add_iff nil_not_mem_one_suffix).mp hunfold, mul_one]

/-- An operand is any number of signs, a primary and any number of suffixes. -/
theorem words_operand : words [.phrase .operand] = signedOperand := by
  have hunfold : words [.phrase .operand] =
      oneOf signOperators * words [.phrase .operand] + primary * words [.phrase .postfixes] := by
    conv_lhs => rw [words_phrase]
    rw [productions, List.map_cons, List.sum_cons, List.map_append, List.sum_append,
      sum_words_tokens, sum_words_tokens, primary, add_mul, ← words_append, add_left_comm]
    rfl
  rw [(Language.self_eq_mul_add_iff (nil_not_mem_one_of _)).mp hunfold, words_postfixes]
  rfl

/-- More operands are any number of binary operators, each with its operand. -/
theorem words_more_operands :
    words [.phrase .moreOperands] = (oneOf binaryOperators * words [.phrase .operand])∗ := by
  have hunfold : words [.phrase .moreOperands] =
      oneOf binaryOperators * words [.phrase .operand] * words [.phrase .moreOperands] + 1 := by
    conv_lhs => rw [words_phrase]
    rw [productions, List.map_cons, List.sum_cons, words_nil, sum_words_tokens, words_cons,
      mul_assoc, add_comm]
  rw [(Language.self_eq_mul_add_iff (nil_not_mem_mul (nil_not_mem_one_of _))).mp hunfold, mul_one]

/-- An expression is an operand and more operands. -/
theorem expression_eq :
    words [.phrase .expression] = words [.phrase .operand] * words [.phrase .moreOperands] := by
  rw [words_phrase, productions, List.map_cons, List.map_nil, List.sum_cons, List.sum_nil, add_zero,
    words_cons]

/-- An expression is a chain of operands with binary operators between them. -/
theorem words_expression :
    words [.phrase .expression] = signedOperand * (oneOf binaryOperators * signedOperand)∗ := by
  rw [expression_eq, words_more_operands, words_operand]

/-- Suffixes in a row are suffixes. -/
theorem postfixes_mul_self :
    words [.phrase .postfixes] * words [.phrase .postfixes] = words [.phrase .postfixes] := by
  rw [words_postfixes, kstar_mul_kstar]

/-- An operand takes up the suffixes behind it. -/
theorem operand_mul_postfixes :
    words [.phrase .operand] * words [.phrase .postfixes] = words [.phrase .operand] := by
  rw [words_operand, signedOperand, mul_assoc, mul_assoc, words_postfixes, kstar_mul_kstar]

/-- Operators in a row, each with its operand, are operators with their operands. -/
theorem more_operands_mul_self :
    words [.phrase .moreOperands] * words [.phrase .moreOperands] =
      words [.phrase .moreOperands] := by
  rw [words_more_operands, kstar_mul_kstar]

/-- Continuations are suffixes and then operators with their operands. -/
theorem continuations_eq :
    continuations = words [.phrase .postfixes] * words [.phrase .moreOperands] :=
  words_append [.phrase .postfixes] [.phrase .moreOperands]

/-- Suffixes may be left out. -/
theorem one_le_postfixes : 1 ≤ words [.phrase .postfixes] := by
  rw [words_postfixes]
  exact one_le_kstar

/-- Operators may be left out. -/
theorem one_le_more_operands : 1 ≤ words [.phrase .moreOperands] := by
  rw [words_more_operands]
  exact one_le_kstar

/-- Suffixes alone are continuations. -/
theorem postfixes_le_continuations : words [.phrase .postfixes] ≤ continuations := by
  rw [continuations_eq]
  calc words [.phrase .postfixes] = words [.phrase .postfixes] * 1 := (mul_one _).symm
    _ ≤ words [.phrase .postfixes] * words [.phrase .moreOperands] :=
        mul_le_mul_right one_le_more_operands _

/-- The empty word continues every operand. -/
theorem one_le_continuations : 1 ≤ continuations :=
  one_le_postfixes.trans postfixes_le_continuations

/-- Suffixes behind the last of some operands belong to that operand. -/
theorem more_operands_mul_postfixes_le :
    words [.phrase .moreOperands] * words [.phrase .postfixes] ≤ continuations := by
  rw [words_more_operands]
  -- The operators are a star, so it is enough that one more operator in front stays inside.
  refine kstar_mul_le postfixes_le_continuations ?_
  calc oneOf binaryOperators * words [.phrase .operand] * continuations
      = oneOf binaryOperators * words [.phrase .operand] * words [.phrase .moreOperands] := by
        rw [continuations_eq, ← mul_assoc, mul_assoc (oneOf binaryOperators),
          operand_mul_postfixes]
    _ ≤ words [.phrase .moreOperands] := by
        rw [words_more_operands]
        exact mul_kstar_le_kstar
    _ = 1 * words [.phrase .moreOperands] := (one_mul _).symm
    _ ≤ words [.phrase .postfixes] * words [.phrase .moreOperands] :=
        mul_le_mul_left one_le_postfixes _
    _ = continuations := continuations_eq.symm

/-- What may follow an operand may follow it again. -/
theorem continuations_mul_le : continuations * continuations ≤ continuations := by
  calc continuations * continuations
      = words [.phrase .postfixes] * (words [.phrase .moreOperands] * words [.phrase .postfixes]) *
          words [.phrase .moreOperands] := by
        rw [continuations_eq]
        simp only [mul_assoc]
    _ ≤ words [.phrase .postfixes] * continuations * words [.phrase .moreOperands] :=
        mul_le_mul_left (mul_le_mul_right more_operands_mul_postfixes_le _) _
    _ = continuations := by
        rw [continuations_eq]
        simp only [mul_assoc]
        rw [more_operands_mul_self, ← mul_assoc, postfixes_mul_self]

/-- An operand with continuations is an expression. -/
theorem operand_mul_continuations :
    words [.phrase .operand] * continuations = words [.phrase .expression] := by
  rw [continuations_eq, ← mul_assoc, operand_mul_postfixes, expression_eq]

/-- An expression takes up the continuations behind it. -/
theorem expression_mul_continuations_le :
    words [.phrase .expression] * continuations ≤ words [.phrase .expression] := by
  rw [← operand_mul_continuations, mul_assoc]
  exact mul_le_mul_right continuations_mul_le _

end Decaf
