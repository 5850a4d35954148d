import Decaf.Proofs.Recognizer.Moves
import Decaf.Proofs.Recognizer.Patience

/-!
# Runs are exact

What a run has read of the words that its agenda stands for. `Reads` relates the words before some
steps to the words after them: what has been seen starts a word, and the words that go on with the
current token are left as they were. One step reads by `move_exact` (`step_reads`), reading composes
(`Reads.trans`), and so whole runs read (`run_exact`): a run that accepts has read its agenda, and a
run that rejects has met a token with which no word goes on, unless it was nested too deeply.
-/

namespace Decaf

namespace Recognizer

variable {recognizer next other : Recognizer} {whole rest beyond : Language TokenKind}
  {seen more : List TokenKind} {error : Diagnostic}

/-- A recognizer has got from one place to another and has seen some kinds on the way. They start a
word of `whole`, and such a word goes on with the current token when `rest` starts with it. -/
structure Reads (whole rest : Language TokenKind) (recognizer next : Recognizer)
    (seen : List TokenKind) : Prop where
  ahead : recognizer.ahead = seen ++ next.ahead
  index : next.index = recognizer.index + seen.length
  tables : next.tables = recognizer.tables
  viable : ∃ more, seen ++ more ∈ whole
  exact : ∀ word, seen ++ next.kind :: word ∈ whole ↔ next.kind :: word ∈ rest

/-- A move that takes no token reads nothing. -/
theorem Reads.stay (hahead : next.ahead = recognizer.ahead)
    (hindex : next.index = recognizer.index) (htables : next.tables = recognizer.tables)
    (hwhole : ∃ word, word ∈ whole)
    (hexact : ∀ word, recognizer.kind :: word ∈ whole ↔ recognizer.kind :: word ∈ rest) :
    Reads whole rest recognizer next [] where
  ahead := hahead.symm
  index := hindex
  tables := htables
  viable := hwhole
  exact word := by
    have hkind : next.kind = recognizer.kind := (List.cons.inj hahead).1
    rw [hkind]
    exact hexact word

/-- What one stretch leaves is read by the next. -/
theorem Reads.trans {middle : Recognizer} {later : List TokenKind}
    (hfirst : Reads whole rest recognizer middle seen)
    (hsecond : Reads rest beyond middle next later) :
    Reads whole beyond recognizer next (seen ++ later) where
  ahead := by rw [hfirst.ahead, hsecond.ahead, List.append_assoc]
  index := by rw [hsecond.index, hfirst.index, List.length_append, Nat.add_assoc]
  tables := hsecond.tables.trans hfirst.tables
  viable := by
    obtain ⟨more, hmore⟩ := hsecond.viable
    have hahead := hsecond.ahead
    cases later with
    | nil => simpa using hfirst.viable
    | cons kind later =>
        -- What is seen later starts with the token the first stretch ended at.
        have hkind : middle.kind = kind := (List.cons.inj hahead).1
        subst hkind
        exact ⟨more, by simpa using (hfirst.exact (later ++ more)).mpr hmore⟩
  exact word := by
    have hahead := hsecond.ahead
    cases later with
    | nil =>
        have hkind : middle.kind = next.kind := (List.cons.inj hahead).1
        have hexact := hfirst.exact word
        rw [hkind] at hexact
        simpa using hexact.trans (hsecond.exact word)
    | cons kind later =>
        have hkind : middle.kind = kind := (List.cons.inj hahead).1
        subst hkind
        have hexact := hfirst.exact (later ++ next.kind :: word)
        simpa using hexact.trans (hsecond.exact word)

/-- The input still ends behind what has been read. -/
theorem Reads.ends_input (h : Reads whole rest recognizer next seen)
    (hends : recognizer.EndsInput) : next.EndsInput :=
  hends.behind h.ahead

/-- Taking a token reads its kind. -/
theorem Reads.take (hends : recognizer.EndsInput) (hkind : recognizer.kind ≠ .endOfInput)
    (hrest : ∃ word, word ∈ rest)
    (hexact : ∀ word, recognizer.kind :: word ∈ whole ↔ word ∈ rest) :
    Reads whole rest recognizer recognizer.advance [recognizer.kind] where
  ahead := hends.ahead_advance hkind
  index := hends.index_advance hkind
  tables := tables_advance recognizer
  viable := by
    obtain ⟨word, hword⟩ := hrest
    exact ⟨word, (hexact word).mpr hword⟩
  exact word := hexact (recognizer.advance.kind :: word)

/-- A successful step reads what its move says. -/
theorem step_reads {goal : Goal} {goals agenda : List Goal}
    (htables : recognizer.tables = .standard) (hends : recognizer.EndsInput)
    (hguarded : Guarded recognizer.kind (goal :: goals)) (horderly : Orderly (goal :: goals) beyond)
    (hbeyond : ∃ word, word ∈ beyond) (h : recognizer.step goal goals = .ok (next, agenda)) :
    Orderly agenda beyond ∧
      ∃ seen, Reads (agendaLanguage (goal :: goals) beyond) (agendaLanguage agenda beyond)
        recognizer next seen := by
  obtain ⟨hfits, hrest⟩ := horderly
  have hexact := move_exact recognizer.kind hfits
  have hlowers := move_lowers hguarded.1
  have hwhole := agenda_language_nonempty (goal :: goals) hbeyond
  rw [← htables] at hexact hlowers
  rcases step_ok h with ⟨hmove, rfl, rfl⟩ | ⟨found, hmove, rfl, rfl⟩ |
    ⟨found, hmove, -, rfl, rfl⟩ | ⟨hmove, rfl, rfl⟩
  · rw [hmove] at hexact hlowers
    exact ⟨hrest, _, Reads.take hends hlowers (agenda_language_nonempty agenda hbeyond) hexact⟩
  · rw [hmove] at hexact
    refine ⟨hexact.2.append hrest, [], Reads.stay rfl rfl rfl hwhole fun word ↦ ?_⟩
    rw [agenda_language_append]
    exact hexact.1 word
  · rw [hmove] at hexact
    obtain ⟨heq, horderly, -⟩ := hexact
    refine ⟨?_, [], Reads.stay rfl rfl rfl hwhole fun word ↦ ?_⟩
    · rw [← List.singleton_append, ← List.append_assoc]
      exact horderly.append hrest
    · rw [agenda_language_append, agenda_language_cons, agenda_language_cons, heq]
      show _ ↔ _ ∈ agendaLanguage found (1 * agendaLanguage goals beyond)
      rw [one_mul]
  · rw [hmove] at hexact
    have heq : goal.language * agendaLanguage agenda beyond = agendaLanguage agenda beyond := hexact
    refine ⟨hrest, [], Reads.stay rfl rfl rfl hwhole fun word ↦ ?_⟩
    rw [agenda_language_cons, heq]

/-- What a rejection says: no word goes on with the current token, which is blamed, unless the
constructs in front of it were nested too deeply. -/
def Rejects (whole : Language TokenKind) (recognizer next : Recognizer) (error : Diagnostic) :
    Prop :=
  ∃ reason, error = next.unexpected reason ∧
    (next.kind ≠ .endOfInput ∧ reason = some "nesting too deep" ∨
      ∃ seen, Reads whole 0 recognizer next seen)

/-- What is rejected behind a stretch is rejected with it. -/
theorem Rejects.of_reads {middle : Recognizer} (hfirst : Reads whole rest recognizer middle seen)
    (h : Rejects rest middle next error) : Rejects whole recognizer next error := by
  obtain ⟨reason, herror, hnested | ⟨later, hsecond⟩⟩ := h
  · exact ⟨reason, herror, Or.inl hnested⟩
  · exact ⟨reason, herror, Or.inr ⟨seen ++ later, hfirst.trans hsecond⟩⟩

/-- A step that fails rejects. -/
theorem step_rejects {goal : Goal} {goals : List Goal} (levels : Nat)
    (htables : recognizer.tables = .standard) (horderly : Orderly (goal :: goals) beyond)
    (hbeyond : ∃ word, word ∈ beyond) (h : recognizer.step goal goals = .error error) :
    Rejects (agendaLanguage (goal :: goals) beyond) recognizer (recognizer.ascend levels)
      error := by
  have hexact := move_exact recognizer.kind horderly.1
  have hwhole := agenda_language_nonempty (goal :: goals) hbeyond
  rw [← htables] at hexact
  rcases step_error h with ⟨reason, hmove, rfl⟩ | ⟨found, hmove, -, rfl⟩
  · rw [hmove] at hexact
    refine ⟨reason, rfl, Or.inr ⟨[], Reads.stay rfl rfl rfl hwhole fun word ↦ ?_⟩⟩
    exact iff_of_false (hexact word) (Language.notMem_zero _)
  · rw [hmove] at hexact
    refine ⟨_, rfl, ?_⟩
    by_cases hkind : recognizer.kind = .endOfInput
    · refine Or.inr ⟨[], Reads.stay rfl rfl rfl hwhole fun word ↦ ?_⟩
      rw [hkind]
      exact iff_of_false (hexact.2.2 word) (Language.notMem_zero _)
    · exact Or.inl ⟨hkind, rfl⟩

/-- What is known where a run ends in front of `beyond`. -/
def Settles (whole beyond : Language TokenKind) (recognizer next : Recognizer) :
    Verdict Unit → Prop
  | .accepted _ => ∃ seen, Reads whole beyond recognizer next seen
  | .rejected error => Rejects whole recognizer next error
  | .stalled => True

/-- A run settles its agenda. -/
theorem run_exact {moves : Nat} {agenda : List Goal} (htables : recognizer.tables = .standard)
    (hends : recognizer.EndsInput) (hguarded : Guarded recognizer.kind agenda)
    (horderly : Orderly agenda beyond) (hbeyond : ∃ word, word ∈ beyond) :
    Settles (agendaLanguage agenda beyond) beyond recognizer (run moves recognizer agenda).1
      (run moves recognizer agenda).2 := by
  induction moves generalizing recognizer agenda with
  | zero =>
      cases agenda with
      | nil => exact ⟨[], Reads.stay rfl rfl rfl hbeyond fun word ↦ Iff.rfl⟩
      | cons goal goals => trivial
  | succ moves ih =>
      cases agenda with
      | nil => exact ⟨[], Reads.stay rfl rfl rfl hbeyond fun word ↦ Iff.rfl⟩
      | cons goal goals =>
          rw [run]
          split
          · next next agenda hstep =>
            obtain ⟨horderly, seen, hreads⟩ :=
              step_reads htables hends hguarded horderly hbeyond hstep
            obtain ⟨htables, hends, hguarded, -⟩ := step_lowers htables hends hguarded hstep
            have hrest := ih htables hends hguarded horderly
            revert hrest
            cases (run moves next agenda).2 with
            | accepted result =>
                intro hrest
                obtain ⟨later, hlater⟩ := hrest
                exact ⟨seen ++ later, hreads.trans hlater⟩
            | rejected error => exact Rejects.of_reads hreads
            | stalled => exact fun _ ↦ trivial
          · next error hstep => exact step_rejects _ htables horderly hbeyond hstep

end Recognizer

end Decaf
