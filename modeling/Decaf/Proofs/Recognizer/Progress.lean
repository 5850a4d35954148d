import Decaf.Proofs.Recognizer.Relevance

/-!
# Recognition makes progress

With the standard tables every turn of a run lowers the effort left, so a run ends, and it cannot
come back to an agenda in front of the same token: whatever loop of the grammar starts over, a round
of it has taken a token (`Steady.comes_back`). An agenda with a goal of less than the highest rank
cannot be worked off without a token (`Steady.takes`), and the rules for declarations, statements,
expressions and types are such goals.
-/

namespace Decaf

namespace Recognizer

variable {recognizer next : Recognizer} {agenda left : List Goal}

/-- A state of a run with the standard tables, in front of tokens that end, in which no goal would
take the end of input. -/
structure Steady (recognizer : Recognizer) (agenda : List Goal) : Prop where
  tables : recognizer.tables = .standard
  ends_input : recognizer.EndsInput
  guarded : Guarded recognizer.kind agenda

/-- A turn leaves a run steady, with less effort, and passes no end of input. -/
theorem Steady.turn (h : Steady recognizer agenda)
    (hturn : Turn (recognizer, agenda) (next, left)) :
    Steady next left ∧ next.effort left < recognizer.effort agenda ∧
      ∃ seen, Passes recognizer next seen := by
  cases hturn with
  | work hstep =>
      obtain ⟨htables, hends, hguarded, hlt⟩ :=
        step_lowers h.tables h.ends_input h.guarded hstep
      obtain ⟨seen, hpasses, -, -⟩ := step_local h.tables h.ends_input h.guarded hstep
      exact ⟨⟨htables, hends, hguarded⟩, hlt, seen, hpasses⟩

/-- Turns leave a run steady, with no more effort, and pass no end of input. -/
theorem Steady.turns (h : Steady recognizer agenda)
    (hturns : Relation.ReflTransGen Turn (recognizer, agenda) (next, left)) :
    Steady next left ∧ next.effort left ≤ recognizer.effort agenda ∧
      ∃ seen, Passes recognizer next seen := by
  generalize hsecond : (next, left) = second at hturns
  induction hturns generalizing next left with
  | refl =>
      obtain ⟨rfl, rfl⟩ := Prod.mk.inj hsecond
      exact ⟨h, Nat.le_refl _, [], Passes.refl _⟩
  | @tail middle second _ hturn ih =>
      obtain ⟨middle, between⟩ := middle
      subst hsecond
      obtain ⟨hmiddle, hle, first, hfirst⟩ := ih rfl
      obtain ⟨hnext, hlt, later, hlater⟩ := hmiddle.turn hturn
      exact ⟨hnext, Nat.le_trans (Nat.le_of_lt hlt) hle, first ++ later, hfirst.trans hlater⟩

/-- The tokens left are fewer by those passed. -/
theorem Passes.after_length {seen : List TokenKind} (h : Passes recognizer next seen) :
    recognizer.after.length = seen.length + next.after.length := by
  have hlength := congrArg List.length h.ahead
  simp only [ahead_eq, List.length_append, List.length_cons, List.length_map] at hlength
  omega

/-- Where fewer tokens are left some have been passed. -/
theorem Passes.ne_nil {seen : List TokenKind} (h : Passes recognizer next seen)
    (hlt : next.after.length < recognizer.after.length) : seen ≠ [] := by
  have hlength := h.after_length
  rw [← List.length_pos_iff]
  omega

/-- A run that comes back to an agenda has taken a token. -/
theorem Steady.comes_back (h : Steady recognizer agenda)
    (hturns : Relation.TransGen Turn (recognizer, agenda) (next, agenda)) :
    ∃ seen, seen ≠ [] ∧ Passes recognizer next seen := by
  obtain ⟨⟨middle, between⟩, hturn, hrest⟩ := Relation.TransGen.head'_iff.mp hturns
  obtain ⟨hmiddle, hlt, first, hfirst⟩ := h.turn hturn
  obtain ⟨-, hle, later, hlater⟩ := hmiddle.turns hrest
  have hpasses := hfirst.trans hlater
  -- The agenda is the same, so the effort has got less by the tokens alone.
  have hafter : next.after.length < recognizer.after.length := by
    unfold effort at hlt hle
    omega
  exact ⟨first ++ later, hpasses.ne_nil hafter, hpasses⟩

/-- A turn at an agenda that needs a token takes one, or leaves an agenda that needs one. -/
theorem Steady.turn_needs (h : Steady recognizer agenda)
    (hneeds : ∃ goal ∈ agenda, goal.rank < 16) (hturn : Turn (recognizer, agenda) (next, left)) :
    next.after.length < recognizer.after.length ∨ ∃ goal ∈ left, goal.rank < 16 := by
  obtain ⟨needy, hmem, hrank⟩ := hneeds
  cases hturn with
  | @work _ goal rest _ hstep =>
      have hlowers := move_lowers h.guarded.1
      rw [← h.tables] at hlowers
      have hadmitted (goals : List Goal) (hadmits : goal.Admits recognizer.kind goals) :
          ∃ found ∈ goals ++ rest, found.rank < 16 := by
        rcases List.mem_cons.mp hmem with rfl | hrest
        · cases goals with
          | nil => exact absurd hadmits (Nat.ne_of_lt hrank)
          | cons first goals =>
              have hfirst := hadmits.1
              exact ⟨first, List.mem_cons_self, by omega⟩
        · exact ⟨needy, List.mem_append_right goals hrest, hrank⟩
      rcases step_ok hstep with ⟨hmove, rfl, rfl⟩ | ⟨goals, hmove, rfl, rfl⟩ |
        ⟨goals, hmove, -, rfl, rfl⟩ | ⟨hmove, rfl, rfl⟩
      · rw [hmove] at hlowers
        have hafter := h.ends_input.after_advance hlowers
        exact Or.inl (by omega)
      · rw [hmove] at hlowers
        exact Or.inr (hadmitted goals hlowers)
      · rw [hmove] at hlowers
        have hfound := hadmitted _ hlowers
        rw [List.append_assoc, List.singleton_append] at hfound
        exact Or.inr hfound
      · rw [hmove] at hlowers
        exact Or.inr (hadmitted [] hlowers)

/-- An agenda that needs a token is not worked off without one. -/
theorem Steady.takes (h : Steady recognizer agenda) (hneeds : ∃ goal ∈ agenda, goal.rank < 16)
    (hturns : Relation.ReflTransGen Turn (recognizer, agenda) (next, [])) :
    ∃ seen, seen ≠ [] ∧ Passes recognizer next seen := by
  suffices hafter : next.after.length < recognizer.after.length by
    obtain ⟨-, -, seen, hpasses⟩ := h.turns hturns
    exact ⟨seen, hpasses.ne_nil hafter, hpasses⟩
  generalize hfirst : (recognizer, agenda) = first at hturns
  induction hturns using Relation.ReflTransGen.head_induction_on generalizing recognizer agenda with
  | refl =>
      obtain ⟨goal, hmem, -⟩ := hneeds
      rw [(Prod.mk.inj hfirst).2] at hmem
      exact absurd hmem List.not_mem_nil
  | @head first middle hturn hrest ih =>
      obtain ⟨middle, between⟩ := middle
      subst hfirst
      obtain ⟨hmiddle, -, first, hpassed⟩ := h.turn hturn
      obtain ⟨-, -, later, hlater⟩ := hmiddle.turns hrest
      have hturnLength := hpassed.after_length
      have hrestLength := hlater.after_length
      rcases h.turn_needs hneeds hturn with hlt | hmore
      · omega
      · have hlt := ih hmiddle hmore rfl
        omega

/-- Behind the tokens of a file the input ends. -/
theorem ends_input_of_tokens {tokens : List Token} {file : String}
    (h : recognizer.tokens = tokens ++ [endToken tokens file]) : recognizer.EndsInput := by
  have hlast := congrArg List.getLast? h
  rw [Recognizer.tokens, List.getLast?_append_of_ne_nil _ (List.cons_ne_nil _ _),
    List.getLast?_concat] at hlast
  rw [EndsInput, ahead, List.getLast?_map, hlast]
  rfl

end Recognizer

/-! ## Phrases and loops -/

/-- The goals that stand for a whole phrase: a declaration, a statement, and an expression or a type
at any power. -/
inductive Goal.IsPhrase : Goal → Prop where
  | declaration : IsPhrase (.rule .declaration)
  | statement : IsPhrase (.rule .statement)
  | expression (power : Power) : IsPhrase (.graded .expression power)
  | type (power : Power) : IsPhrase (.graded .type power)

/-- A phrase has a first token, and looks before it takes it. -/
theorem Goal.IsPhrase.needs {phrase : Goal} (h : phrase.IsPhrase) :
    phrase.rank < 16 ∧ phrase.mayTakeEnd = false := by
  cases h with
  | declaration | statement => decide
  | expression power => exact ⟨show GradedRule.expression.rank < 16 by decide, rfl⟩
  | type power => exact ⟨show GradedRule.type.rank < 16 by decide, rfl⟩

/-- The goals at which a loop starts over: further statements of a block, further parameters and
arguments, what goes on behind an operand, and the suffixes of a type. -/
def Goal.startsOver : Goal → Bool
  | statements | moreParameters | moreArguments | operators _ | typeSuffixes _ => true
  | _ => false

/-- What continues a construct comes back to the goal it started from. -/
theorem continue_at_cases (entry : Option GradedRule) (binding : Option Power) (power : Power)
    (again : Goal) :
    Tables.continueAt entry binding power again = .expand [] ∨
      Tables.continueAt entry binding power again = .refuse none ∨
        ∃ round, Tables.continueAt entry binding power again = .expand (round ++ [again]) := by
  unfold Tables.continueAt
  split
  · exact Or.inl rfl
  · cases entry with
    | none => exact Or.inr (Or.inl rfl)
    | some rule => exact Or.inr (Or.inr ⟨[.graded rule (binding.getD .lowest)], rfl⟩)

/-- A loop is over, or finds that the token does not fit, or goes one more round and starts over. -/
theorem starts_over_cases (tables : Tables) (kind : TokenKind) {goal : Goal}
    (h : goal.startsOver = true) :
    tables.move kind goal = .expand [] ∨ tables.move kind goal = .refuse none ∨
      ∃ round, tables.move kind goal = .expand (round ++ [goal]) := by
  cases goal with
  | operators power | typeSuffixes power => exact continue_at_cases _ _ power _
  | statements =>
      simp only [Tables.move]
      split
      · exact Or.inl rfl
      · exact Or.inr (Or.inr ⟨[.rule .statement], rfl⟩)
  | moreParameters =>
      simp only [Tables.move]
      split
      · exact Or.inr (Or.inr ⟨[.anyToken, .type, .expect .identifier], rfl⟩)
      · exact Or.inl rfl
  | moreArguments =>
      simp only [Tables.move]
      split
      · exact Or.inr (Or.inr ⟨[.anyToken, .expression], rfl⟩)
      · exact Or.inl rfl
  | _ => cases h

open Recognizer

/-- With the tables of Decaf every phrase is accepted or rejected, from any place in any tokens and
at any depth. One that is accepted has passed at least one token, and no end of input. A loop that
is reached on the way is left, or rejects, or goes one more round, and has passed a token whenever
it starts over. So every list of tokens is accepted or rejected as a program. -/
theorem recognition_progresses {tokens : List Token} {file : String} {recognizer : Recognizer}
    (htokens : recognizer.tokens = tokens ++ [endToken tokens file])
    (htables : recognizer.tables = .standard) {phrase : Goal} (hphrase : phrase.IsPhrase) :
    (recognizer.recognize [phrase]).2 ≠ .stalled ∧
      (∀ next, recognizer.recognize [phrase] = (next, .accepted ()) →
        ∃ seen, seen ≠ [] ∧ Passes recognizer next seen) ∧
      (∀ state goal rest,
        Relation.ReflTransGen Turn (recognizer, [phrase]) (state, goal :: rest) →
        goal.startsOver = true →
          (Turn (state, goal :: rest) (state, rest) ∨
              state.step goal rest = .error (state.unexpected none) ∨
                ∃ round, Turn (state, goal :: rest) (state, round ++ goal :: rest)) ∧
            ∀ next, Relation.TransGen Turn (state, goal :: rest) (next, goal :: rest) →
              ∃ seen, seen ≠ [] ∧ Passes state next seen) ∧
      ∀ tokens file, (parse tokens file).2 ≠ .stalled := by
  have hends := ends_input_of_tokens htokens
  obtain ⟨hrank, htake⟩ := hphrase.needs
  have hguarded : Guarded recognizer.kind [phrase] := guarded_of_false _ (by simpa using htake)
  have hsteady : Steady recognizer [phrase] := ⟨htables, hends, hguarded⟩
  refine ⟨recognize_ne_stalled htables hends hguarded, fun next haccepted ↦ ?_,
    fun state goal rest hreached hloop ↦ ⟨?_, fun next hround ↦ ?_⟩, fun tokens file ↦ ?_⟩
  · exact hsteady.takes ⟨phrase, List.mem_singleton_self _, hrank⟩ (turns_of_accepted haccepted)
  · rcases starts_over_cases state.tables state.kind hloop with hmove | hmove | ⟨round, hmove⟩
    · exact Or.inl (.work (by simp [step, hmove]))
    · exact Or.inr (Or.inl (by simp [step, hmove]))
    · exact Or.inr (Or.inr ⟨round, .work (by simp [step, hmove])⟩)
  · exact (hsteady.turns hreached).1.comes_back hround
  · exact declarations_ne_stalled (tables_ready tokens file) (ends_input_ready tokens file) 0

/-- An array type behind another token, seven levels down: the type is accepted at the end of input,
and its one suffix has passed two tokens when the loop of suffixes starts over. -/
theorem recognition_progresses_array :
    let tokens := [.semicolon, .intType, .openBracket, .closeBracket].map bareToken
    let recognizer := { (ready tokens "").advance with depth := 7 }
    let suffixes := [Goal.typeSuffixes .lowest]
    (∃ seen, seen ≠ [] ∧
        Passes recognizer (recognizer.recognize [.type]).1 seen) ∧
      Relation.TransGen Turn (recognizer.advance, suffixes)
        (recognizer.advance.advance.advance, suffixes) ∧
      ∃ seen, seen ≠ [] ∧ Passes recognizer.advance recognizer.advance.advance.advance seen := by
  intro tokens recognizer suffixes
  have hfirst : Relation.ReflTransGen Turn (recognizer, [.type]) (recognizer.advance, suffixes) :=
    .head (.work rfl) (.head (.work rfl) (.head (.work rfl) (.head (.work rfl) .refl)))
  have hround : Relation.TransGen Turn (recognizer.advance, suffixes)
      (recognizer.advance.advance.advance, suffixes) :=
    .head (.work rfl) (.head (.work rfl) (.head (.work rfl) (.head (.work rfl)
      (.single (.work rfl)))))
  have haccepted : (recognizer.recognize [.type]).2 = .accepted () := by decide +kernel
  have htokens : recognizer.tokens = tokens ++ [endToken tokens ""] := rfl
  obtain ⟨-, hpassed, hloop, -⟩ := recognition_progresses htokens rfl (.type .lowest)
  exact ⟨hpassed _ (Prod.ext rfl haccepted), hround, (hloop _ _ _ hfirst rfl).2 _ hround⟩

end Decaf
