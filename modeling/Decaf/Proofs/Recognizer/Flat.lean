import Decaf.Proofs.Recognizer.Chains
import Decaf.Proofs.Recognizer.Functions

/-!
# Flat expressions stay shallow

A chain of atoms with member accesses and empty calls opens levels for its operators alone, and
those that are open at a time bind tighter and tighter: an operator that binds no tighter than the
last one is left to an outer level. Without assignments, which start over, there are as many levels
as powers, however long the chain is (`parse_flat`).
-/

namespace Decaf

/-- A suffix that holds no expression: a member or a call without arguments. -/
inductive FlatSuffix where
  | member
  | call

/-- The kinds of a suffix. -/
def FlatSuffix.kinds : FlatSuffix → List TokenKind
  | member => [.dot, .identifier]
  | call => [.openParen, .closeParen]

/-- An atom with any number of suffixes. -/
structure FlatOperand where
  atom : TokenKind
  suffixes : List FlatSuffix
  atom_mem : atom ∈ atoms

/-- The kinds of a flat operand. -/
def FlatOperand.kinds (operand : FlatOperand) : List TokenKind :=
  operand.atom :: operand.suffixes.flatMap FlatSuffix.kinds

/-- A binary operator other than an assignment, with the flat operand to its right. -/
structure FlatLink where
  operator : TokenKind
  operand : FlatOperand
  binary : operator ∈ binaryOperators
  ne_assign : operator ≠ .assign

/-- A flat link as a link of a chain. -/
def FlatLink.link (link : FlatLink) : Link :=
  ⟨link.operator, link.operand.kinds⟩

/-- The kinds of a flat chain. -/
def flatKinds (first : FlatOperand) (links : List FlatLink) : List TokenKind :=
  first.kinds ++ linkKinds (links.map FlatLink.link)

/-- A flat suffix opens no level. -/
theorem FlatSuffix.yields (suffix : FlatSuffix) : SuffixesYield 0 suffix.kinds := by
  cases suffix with
  | member => exact member_yields
  | call => exact call_yields no_arguments_yield

/-- A flat operand opens no level. -/
theorem FlatOperand.yields (operand : FlatOperand) : OperandYields 0 operand.kinds := by
  obtain ⟨atom, suffixes, hatom⟩ := operand
  refine OperandYields.of_suffixes (atom_yields hatom) ?_
  induction suffixes with
  | nil => exact .nil
  | cons suffix suffixes ih => exact suffix.yields.append ih

/-- A flat chain is an expression of at most eight levels. -/
theorem flat_chain_yields (first : FlatOperand) (links : List FlatLink) :
    Yields 8 [.expression] [] (Stops .lowest) (flatKinds first links) := by
  have hlinks : ∀ link ∈ links.map FlatLink.link, link.Yields 0 := by
    intro link hlink
    obtain ⟨flat, -, rfl⟩ := List.mem_map.mp hlink
    exact ⟨flat.binary, flat.operand.yields⟩
  have hnone : (links.map FlatLink.link).countP (fun link ↦ link.operator = .assign) = 0 := by
    refine List.countP_eq_zero.mpr fun link hlink ↦ ?_
    obtain ⟨flat, -, rfl⟩ := List.mem_map.mp hlink
    exact fun hassign ↦ flat.ne_assign (of_decide_eq_true hassign)
  refine whole_chain_yields first.yields hlinks ?_
  rw [linkLevels, hnone]
  decide

open Recognizer

/-- A function whose body is a flat expression is accepted, and no state of the parse is deeper than
nine levels, however many operators and suffixes there are. -/
theorem parse_flat {tokens : List Token} {first : FlatOperand} {links : List FlatLink}
    (hkinds : tokens.map Token.kind =
      functionStart ++ (flatKinds first links ++ [TokenKind.semicolon, .closeCurly]))
    (file : String) :
    (parse tokens file).2 = .accepted 1 ∧
      ∀ state, Visits (ready tokens file) state → state.depth ≤ 9 := by
  have hstart : ∀ kind ∈ atoms, kind ∈ operandStarts := by decide
  exact parse_of_clears hkinds (expression_body_clears (hstart _ first.atom_mem)
    (flat_chain_yields first links)) (by decide) file

/-- The function `void f() { a.b() + 1 * c; }` has such a body. -/
theorem parse_flat_sum :
    let body : List TokenKind := [.identifier, .dot, .identifier, .openParen, .closeParen, .plus,
      .intLiteral, .star, .identifier, .semicolon, .closeCurly]
    let tokens := (functionStart ++ body).map bareToken
    (parse tokens "").2 = .accepted 1 ∧
      ∀ state, Visits (ready tokens "") state → state.depth ≤ 9 := by
  intro body tokens
  let first : FlatOperand := ⟨.identifier, [.member, .call], by decide⟩
  let links : List FlatLink :=
    [⟨.plus, ⟨.intLiteral, [], by decide⟩, by decide, by decide⟩,
      ⟨.star, ⟨.identifier, [], by decide⟩, by decide, by decide⟩]
  have hkinds : tokens.map Token.kind =
      functionStart ++ (flatKinds first links ++ [TokenKind.semicolon, .closeCurly]) := by decide
  exact parse_flat hkinds ""

end Decaf
