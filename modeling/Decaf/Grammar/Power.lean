/-!
# Binding powers

How tightly an operator holds its operands. The powers form a ladder: an expression that is read
at one power stops in front of every operator that stands no higher.
-/

namespace Decaf

/-- The binding powers, from the loosest to the tightest. -/
inductive Power where
  | lowest
  | assignment
  | logicalOr
  | logicalAnd
  | equality
  | relational
  | shift
  | additive
  | multiplicative
  | unary
  | call
  | member
  | primary
deriving DecidableEq, Repr

namespace Power

/-- Every power, from the loosest to the tightest. -/
def all : List Power :=
  [lowest, assignment, logicalOr, logicalAnd, equality, relational, shift, additive,
    multiplicative, unary, call, member, primary]

/-- The rung of a power on the ladder. -/
def rank : Power → Nat
  | lowest => 0
  | assignment => 1
  | logicalOr => 2
  | logicalAnd => 3
  | equality => 4
  | relational => 5
  | shift => 6
  | additive => 7
  | multiplicative => 8
  | unary => 9
  | call => 10
  | member => 11
  | primary => 12

/-- A power is at most another when it stands no higher on the ladder. -/
instance : LE Power := ⟨fun first second ↦ first.rank ≤ second.rank⟩

/-- Powers compare by their rungs. -/
theorem le_iff_rank_le {first second : Power} : first ≤ second ↔ first.rank ≤ second.rank :=
  Iff.rfl

/-- Whether one power is at most another can be decided. -/
instance (first second : Power) : Decidable (first ≤ second) :=
  inferInstanceAs (Decidable (first.rank ≤ second.rank))

/-- The name under which a power is listed. -/
def name : Power → String
  | lowest => "Default"
  | assignment => "Assignment"
  | logicalOr => "LogicalOr"
  | logicalAnd => "LogicalAnd"
  | equality => "Equality"
  | relational => "Relational"
  | shift => "Shift"
  | additive => "Additive"
  | multiplicative => "Multiplicative"
  | unary => "Unary"
  | call => "Call"
  | member => "Member"
  | primary => "Primary"

/-- The power listed under a name. -/
def ofName? (text : String) : Option Power :=
  all.find? fun power ↦ power.name = text

/-- Every power is listed under its name. -/
theorem of_name_name (power : Power) : ofName? power.name = some power := by
  cases power <;> rfl

/-- The power listed under a name is the one that has it. -/
theorem of_name_eq_some {text : String} {power : Power} :
    ofName? text = some power ↔ power.name = text := by
  constructor
  · intro h
    unfold ofName? at h
    simpa using List.find?_some h
  · rintro rfl
    exact of_name_name power

end Power

end Decaf
