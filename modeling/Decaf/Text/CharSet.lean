/-!
# Sets of characters given by ranges

The properties of characters that the Unicode standard lists are kept as tables of ranges of code
points. A table is read as the set of the characters that lie in one of its ranges.
-/

namespace Decaf

/-- A set of characters: ranges of code points, both ends included. -/
structure CharSet where
  ranges : List (Nat × Nat)

namespace CharSet

/-- A character belongs to a set when one of the set's ranges holds its code point. -/
def contains (set : CharSet) (c : Char) : Bool :=
  set.ranges.any fun range ↦ range.1 ≤ c.toNat && c.toNat ≤ range.2

/-- Membership spelled out. -/
theorem contains_iff (set : CharSet) (c : Char) :
    set.contains c = true ↔ ∃ range ∈ set.ranges, range.1 ≤ c.toNat ∧ c.toNat ≤ range.2 := by
  simp [contains]

end CharSet

end Decaf
