import Decaf.Proofs.Recognizer.Runs

/-!
# Programs are recognized exactly

The declarations of a program are recognized one run after the other, each in front of the programs
that may follow. `declarations_exact` puts the runs together: the declarations are counted as the
grammar counts them, or some token goes on with no program. A run that accepts a declaration has
taken a token (`recognize_declaration_shortens`), so the count is never broken off.
-/

namespace Decaf

/-- The words of programs with a number of declarations, up to the end of input. -/
def programOf (count : Nat) : Language TokenKind :=
  words (List.replicate count (.phrase .declaration)) * oneOf [.endOfInput]

/-- The words of all programs, up to the end of input. -/
def program : Language TokenKind :=
  {word | ∃ count, word ∈ programOf count}

/-- The kinds in front of the end of input are those of a program. -/
theorem append_end_mem_program_of {count : Nat} {kinds : List TokenKind} :
    kinds ++ [.endOfInput] ∈ programOf count ↔ IsProgram count kinds := by
  rw [programOf, Language.mem_mul]
  constructor
  · intro hword
    obtain ⟨left, hleft, right, ⟨kind, hkind, rfl⟩, heq⟩ := hword
    obtain ⟨rfl, -⟩ := List.append_inj' heq rfl
    exact hleft
  · intro h
    exact ⟨kinds, h, [.endOfInput], ⟨.endOfInput, List.mem_singleton_self _, rfl⟩, rfl⟩

/-- Programs are words up to the end of input. -/
theorem mem_program {word : List TokenKind} :
    word ∈ program ↔ ∃ count kinds, word = kinds ++ [.endOfInput] ∧ IsProgram count kinds := by
  constructor
  · intro hword
    obtain ⟨count, left, hleft, right, ⟨kind, hkind, rfl⟩, rfl⟩ := hword
    obtain rfl := List.mem_singleton.mp hkind
    exact ⟨count, left, rfl, hleft⟩
  · intro hword
    obtain ⟨count, kinds, rfl, h⟩ := hword
    exact ⟨count, append_end_mem_program_of.mpr h⟩

/-- Without a declaration nothing is left but the end of input. -/
theorem program_of_zero : programOf 0 = oneOf [.endOfInput] := by
  rw [programOf, List.replicate_zero, words_nil, one_mul]

/-- A longer program starts with a declaration. -/
theorem program_of_succ (count : Nat) :
    programOf (count + 1) = words [.phrase .declaration] * programOf count := by
  rw [programOf, List.replicate_succ, words_cons, mul_assoc, programOf]

/-- Nothing is an empty program. -/
theorem end_mem_program_of_zero : [.endOfInput] ∈ programOf 0 := by
  rw [program_of_zero]
  exact ⟨.endOfInput, List.mem_singleton_self _, rfl⟩

/-- There are programs with every number of declarations. -/
theorem program_of_nonempty (count : Nat) : ∃ word, word ∈ programOf count :=
  mul_nonempty (words_nonempty _) ⟨[.endOfInput], .endOfInput, List.mem_singleton_self _, rfl⟩

/-- There are programs. -/
theorem program_nonempty : ∃ word, word ∈ program :=
  ⟨[.endOfInput], 0, end_mem_program_of_zero⟩

/-- No declaration starts at the end of input. -/
theorem end_not_mem_program_of_succ (count : Nat) (word : List TokenKind) :
    .endOfInput :: word ∉ programOf (count + 1) := by
  rw [program_of_succ]
  exact not_cons_mem_phrase_mul (by decide) rfl

/-- In front of any other token a program goes on with a declaration. -/
theorem cons_mem_program {kind : TokenKind} (hkind : kind ≠ .endOfInput) (word : List TokenKind) :
    kind :: word ∈ program ↔ kind :: word ∈ words [.phrase .declaration] * program := by
  constructor
  · intro hword
    obtain ⟨count, hcount⟩ := hword
    cases count with
    | zero =>
        rw [program_of_zero] at hcount
        obtain ⟨found, hfound, heq⟩ := hcount
        obtain rfl := List.mem_singleton.mp hfound
        exact absurd (List.cons.inj heq).1 hkind
    | succ count =>
        rw [program_of_succ] at hcount
        refine mul_le_mul_right ?_ (words [.phrase .declaration]) hcount
        exact fun word hword ↦ ⟨count, hword⟩
  · intro hword
    obtain ⟨left, hleft, right, ⟨count, hright⟩, heq⟩ := hword
    refine ⟨count + 1, ?_⟩
    rw [program_of_succ]
    exact ⟨left, hleft, right, hright, heq⟩

namespace Recognizer

variable {recognizer next : Recognizer} {error : Diagnostic}

/-- The end of input stands behind the last token and nowhere else. -/
def EndsOnce (recognizer : Recognizer) : Prop :=
  ∃ kinds, recognizer.ahead = kinds ++ [.endOfInput] ∧ .endOfInput ∉ kinds

/-- What ends once ends. -/
theorem EndsOnce.ends_input (h : recognizer.EndsOnce) : recognizer.EndsInput := by
  obtain ⟨kinds, hahead, -⟩ := h
  rw [EndsInput, hahead, List.getLast?_concat]

/-- What has been read is in front of the only end of input. -/
theorem Reads.ends_once {whole rest : Language TokenKind} {seen : List TokenKind}
    (h : Reads whole rest recognizer next seen) (hends : recognizer.EndsOnce) :
    next.EndsOnce ∧ .endOfInput ∉ seen := by
  obtain ⟨kinds, hkinds, honce⟩ := hends
  have hsplit : next.ahead = next.ahead.dropLast ++ [next.ahead.getLast next.ahead_ne_nil] :=
    (List.dropLast_append_getLast next.ahead_ne_nil).symm
  have hahead := h.ahead
  rw [hkinds, hsplit, ← List.append_assoc] at hahead
  obtain ⟨rfl, hlast⟩ := List.append_inj' hahead rfl
  rw [List.mem_append, not_or] at honce
  exact ⟨⟨next.ahead.dropLast, by rw [(List.cons.inj hlast).1]; exact hsplit, honce.2⟩, honce.1⟩

/-- A declaration looks before it takes anything. -/
theorem guarded_declaration (kind : TokenKind) : Guarded kind [.rule .declaration] :=
  guarded_of_false kind (by decide)

/-- Recognizing a declaration settles it, whatever may follow. -/
theorem recognize_declaration (htables : recognizer.tables = .standard)
    (hends : recognizer.EndsInput) {beyond : Language TokenKind} (hbeyond : ∃ word, word ∈ beyond) :
    Settles (words [.phrase .declaration] * beyond) beyond recognizer
      (recognizer.recognize [.rule .declaration]).1 (recognizer.recognize [.rule .declaration]).2 :=
  run_exact htables hends (guarded_declaration recognizer.kind) ⟨trivial, trivial⟩ hbeyond

/-- A declaration that is accepted has been read, whatever may follow. -/
theorem accepted_declaration_reads (htables : recognizer.tables = .standard)
    (hends : recognizer.EndsInput)
    (h : recognizer.recognize [.rule .declaration] = (next, .accepted ()))
    {beyond : Language TokenKind} (hbeyond : ∃ word, word ∈ beyond) :
    ∃ seen, Reads (words [.phrase .declaration] * beyond) beyond recognizer next seen := by
  have hsettles := recognize_declaration htables hends hbeyond
  rw [h] at hsettles
  exact hsettles

/-- A declaration that is accepted has taken a token. -/
theorem recognize_declaration_shortens (htables : recognizer.tables = .standard)
    (hends : recognizer.EndsInput)
    (h : recognizer.recognize [.rule .declaration] = (next, .accepted ())) :
    next.after.length < recognizer.after.length := by
  -- If it took none, the token in front of it would be a declaration followed by itself.
  have hself : [recognizer.kind] ∈ oneOf [recognizer.kind] := ⟨recognizer.kind, by simp, rfl⟩
  obtain ⟨seen, hreads⟩ := accepted_declaration_reads htables hends h ⟨_, hself⟩
  have hahead := hreads.ahead
  cases seen with
  | nil =>
      have hkind : recognizer.kind = next.kind := (List.cons.inj hahead).1
      have hword : recognizer.kind :: [] ∈
          words [.phrase .declaration] * oneOf [recognizer.kind] := by
        have hexact := hreads.exact []
        rw [← hkind] at hexact
        exact hexact.mpr hself
      obtain ⟨left, hleft, right, ⟨kind, -, rfl⟩, heq⟩ := hword
      have hnil : left = [] := by
        have hlength := congrArg List.length heq
        simp only [List.length_append, List.length_singleton] at hlength
        exact List.eq_nil_of_length_eq_zero (by omega)
      rw [hnil] at hleft
      exact absurd hleft (nil_not_mem_words rfl)
  | cons kind seen =>
      have hlength := congrArg List.length hahead
      simp only [ahead, List.length_map, List.length_append, List.length_cons] at hlength
      omega

/-- What is known where the declarations of a program end, counted from `count` on. -/
def Counts (recognizer next : Recognizer) (count : Nat) : Verdict Nat → Prop
  | .accepted total =>
    ∃ found, total = count + found ∧ ∀ other, recognizer.ahead ∈ programOf other ↔ other = found
  | .rejected error => Rejects program recognizer next error
  | .stalled => False

/-- In front of any token but the last a program is a declaration and a program. -/
theorem program_reads (hkind : recognizer.kind ≠ .endOfInput) :
    Reads program (words [.phrase .declaration] * program) recognizer recognizer [] :=
  Reads.stay rfl rfl rfl program_nonempty (cons_mem_program hkind)

/-- One more declaration counts one more. -/
theorem accepted_declaration_counts {found : Nat} (htables : recognizer.tables = .standard)
    (hends : recognizer.EndsInput) (hkind : recognizer.kind ≠ .endOfInput)
    (h : recognizer.recognize [.rule .declaration] = (next, .accepted ()))
    (hnext : ∀ other, next.ahead ∈ programOf other ↔ other = found) (other : Nat) :
    recognizer.ahead ∈ programOf other ↔ other = found + 1 := by
  cases other with
  | zero =>
      refine iff_of_false ?_ (by omega)
      rw [program_of_zero]
      intro hword
      obtain ⟨kind, hmem, heq⟩ := hword
      rw [← List.mem_singleton.mp hmem] at hkind
      exact hkind (List.cons.inj heq).1
  | succ other =>
      obtain ⟨seen, hreads⟩ :=
        accepted_declaration_reads htables hends h (program_of_nonempty other)
      rw [program_of_succ, hreads.ahead]
      refine (hreads.exact _).trans ((hnext other).trans ?_)
      omega

/-- The declarations up to the end of input are counted as the grammar counts them. -/
theorem declarations_exact (htables : recognizer.tables = .standard) (hends : recognizer.EndsOnce)
    (count : Nat) :
    Counts recognizer (recognizer.declarations count).1 count
      (recognizer.declarations count).2 := by
  fun_induction declarations recognizer count with
  | case1 recognizer count hmore next hrun hshort ih =>
      have hkind : recognizer.kind ≠ .endOfInput := by simpa [hasTokens] using hmore
      obtain ⟨seen, hreads⟩ :=
        accepted_declaration_reads htables hends.ends_input hrun program_nonempty
      have hnext := ih (hreads.tables.trans htables) (hreads.ends_once hends).1
      revert hnext
      cases (next.declarations (count + 1)).2 with
      | accepted total =>
          intro hnext
          obtain ⟨found, rfl, hfound⟩ := hnext
          refine ⟨found + 1, by omega, ?_⟩
          exact accepted_declaration_counts htables hends.ends_input hkind hrun hfound
      | rejected error => exact Rejects.of_reads ((program_reads hkind).trans hreads)
      | stalled => exact id
  | case2 recognizer count hmore next hrun hlong =>
      exact hlong (recognize_declaration_shortens htables hends.ends_input hrun)
  | case3 recognizer count hmore next error hrun =>
      have hkind : recognizer.kind ≠ .endOfInput := by simpa [hasTokens] using hmore
      have hrejects := recognize_declaration htables hends.ends_input program_nonempty
      rw [hrun] at hrejects
      exact Rejects.of_reads (program_reads hkind) hrejects
  | case4 recognizer count hmore next hrun =>
      have hstalled := recognize_ne_stalled htables hends.ends_input
        (guarded_declaration recognizer.kind)
      rw [hrun] at hstalled
      exact hstalled rfl
  | case5 recognizer count hnone =>
      have hkind : recognizer.kind = .endOfInput := by simpa [hasTokens] using hnone
      obtain ⟨kinds, hahead, honce⟩ := hends
      refine ⟨0, rfl, fun other ↦ ?_⟩
      cases other with
      | zero =>
          cases kinds with
          | nil => exact iff_of_true (by rw [hahead]; exact end_mem_program_of_zero) rfl
          | cons kind kinds =>
              rw [ahead_eq, hkind] at hahead
              exact absurd (by simp [(List.cons.inj hahead).1]) honce
      | succ other =>
          rw [ahead_eq, hkind]
          exact iff_of_false (end_not_mem_program_of_succ other _) (by omega)

end Recognizer

end Decaf
