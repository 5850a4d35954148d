import Decaf.Proofs.CommandLine.Arguments
import Mathlib.Data.List.Induction

/-!
# The first misfit decides

An argument misfits behind others if it is a flag that the program does not have, or if neither it
nor one of the others is a flag. Arguments that all fit have known flags and at most one file
(`all_fit_iff`), so that reading them comes to what they hold (`fold_of_fit`), in whatever order
they stand. Otherwise there is a first misfit (`exists_first_misfit`), and nothing but that one is
complained about. `of_arguments_settled` puts these together.
-/

namespace Decaf

/-- An argument does not fit behind others: it is a flag that the program does not have, or it is no
flag and neither is one of the others. -/
def Misfits (before : List String) (argument : String) : Prop :=
  (isFlag argument = true ∧ argument ≠ "--check" ∧ argument ≠ "--quiet") ∨
    (isFlag argument = false ∧ ∃ earlier ∈ before, isFlag earlier = false)

/-- Every argument fits behind those in front of it. -/
def AllFit (arguments : List String) : Prop :=
  ∀ before argument after, arguments = before ++ argument :: after → ¬ Misfits before argument

/-- The complaint about an argument that does not fit. -/
def complaint (argument : String) : UsageError :=
  if isFlag argument then .unknownFlag argument else .extraArgument argument

variable {arguments before after : List String} {argument file : String}

/-! ## Arguments that fit -/

/-- Of no arguments all fit. -/
theorem all_fit_nil : AllFit [] := by
  intro before argument after hsplit
  cases before <;> cases hsplit

/-- Another argument fits at the end if it fits behind all of those that fit. -/
theorem all_fit_concat :
    AllFit (arguments ++ [argument]) ↔ AllFit arguments ∧ ¬ Misfits arguments argument := by
  constructor
  · intro h
    refine ⟨fun before other after hsplit ↦ ?_, h arguments argument [] rfl⟩
    refine h before other (after ++ [argument]) ?_
    rw [hsplit, List.append_assoc, List.cons_append]
  · intro h before other after hsplit
    obtain ⟨hfit, hlast⟩ := h
    cases after using List.reverseRecOn with
    | nil =>
        obtain ⟨rfl, hsame⟩ := List.append_inj' hsplit rfl
        cases hsame
        exact hlast
    | append_singleton after last =>
        rw [← List.cons_append, ← List.append_assoc] at hsplit
        exact hfit before other after (List.append_inj' hsplit rfl).1

/-- No arguments are left without the flags if all of them are flags. -/
theorem plain_arguments_eq_nil :
    plainArguments arguments = [] ↔ ∀ argument ∈ arguments, isFlag argument = true := by
  simp [plainArguments]

/-- Some argument is left without the flags if it is no flag. -/
theorem plain_arguments_ne_nil :
    plainArguments arguments ≠ [] ↔ ∃ argument ∈ arguments, isFlag argument = false := by
  simp [plain_arguments_eq_nil]

/-- A flag fits if the program has it, whatever stands in front of it. -/
theorem not_misfits_of_flag (hflag : isFlag argument = true) :
    ¬ Misfits before argument ↔ argument = "--check" ∨ argument = "--quiet" := by
  simp [Misfits, hflag, or_iff_not_imp_left]

/-- An argument that is no flag fits if it is the first of these. -/
theorem not_misfits_of_plain (hplain : isFlag argument = false) :
    ¬ Misfits before argument ↔ plainArguments before = [] := by
  simp [Misfits, hplain, plain_arguments_eq_nil]

/-- Arguments all fit exactly if their flags are known and at most one of them is no flag. -/
theorem all_fit_iff :
    AllFit arguments ↔ FlagsKnown arguments ∧ (plainArguments arguments).length ≤ 1 := by
  induction arguments using List.reverseRecOn with
  | nil => exact iff_of_true all_fit_nil ⟨List.forall_mem_nil _, Nat.zero_le 1⟩
  | append_singleton arguments argument ih =>
      rw [all_fit_concat, ih]
      cases hflag : isFlag argument with
      | true =>
          have hknown : FlagsKnown (arguments ++ [argument]) ↔
              FlagsKnown arguments ∧ (argument = "--check" ∨ argument = "--quiet") := by
            simp [FlagsKnown, or_imp, forall_and, hflag]
          have hsame : plainArguments (arguments ++ [argument]) = plainArguments arguments := by
            simp [plainArguments, hflag]
          rw [not_misfits_of_flag hflag, hknown, hsame]
          exact and_right_comm
      | false =>
          have hknown : FlagsKnown (arguments ++ [argument]) ↔ FlagsKnown arguments := by
            simp [FlagsKnown, or_imp, forall_and, hflag]
          have hmore : plainArguments (arguments ++ [argument]) =
              plainArguments arguments ++ [argument] := by
            simp [plainArguments, hflag]
          rw [not_misfits_of_plain hflag, hknown, hmore, and_assoc, List.length_append,
            List.length_singleton, ← List.length_eq_zero_iff]
          refine and_congr_right fun _ ↦ ?_
          omega

/-- Reading arguments that fit comes to the flags among them and their one file, if there is one. -/
theorem fold_of_fit (hfit : AllFit arguments) :
    arguments.foldlM PartialOptions.add PartialOptions.none =
      .ok ⟨(plainArguments arguments).head?, decide ("--check" ∈ arguments),
        decide ("--quiet" ∈ arguments)⟩ := by
  obtain ⟨hknown, hlength⟩ := all_fit_iff.mp hfit
  refine PartialOptions.fold_eq_ok.mpr ⟨hknown, ?_, rfl, rfl⟩
  show (plainArguments arguments).head?.toList = plainArguments arguments
  match hplain : plainArguments arguments with
  | [] => rfl
  | [file] => rfl
  | first :: second :: rest =>
      rw [hplain] at hlength
      simp at hlength

/-- Arguments that fit make the options of a run if they have a file. -/
theorem of_arguments_of_fit (hfit : AllFit arguments) :
    Options.ofArguments arguments = PartialOptions.finish
      ⟨(plainArguments arguments).head?, decide ("--check" ∈ arguments),
        decide ("--quiet" ∈ arguments)⟩ := by
  rw [Options.ofArguments, fold_of_fit hfit]
  rfl

/-- Among arguments that fit nothing but the file is no flag. -/
theorem plain_arguments_of_fit (hfit : AllFit arguments) (hmem : file ∈ arguments)
    (hplain : isFlag file = false) : plainArguments arguments = [file] := by
  have hlength := (all_fit_iff.mp hfit).2
  have hfile : file ∈ plainArguments arguments := List.mem_filter.mpr ⟨hmem, by simp [hplain]⟩
  obtain ⟨only, honly⟩ :=
    List.length_eq_one_iff.mp (Nat.le_antisymm hlength (List.length_pos_of_mem hfile))
  rw [honly] at hfile ⊢
  rw [List.mem_singleton.mp hfile]

/-! ## The first one that does not -/

/-- Unless all arguments fit there is a first one that does not. -/
theorem exists_first_misfit (h : ¬ AllFit arguments) :
    ∃ before argument after, arguments = before ++ argument :: after ∧ AllFit before ∧
      Misfits before argument := by
  induction arguments using List.reverseRecOn with
  | nil => exact absurd all_fit_nil h
  | append_singleton arguments last ih =>
      by_cases hfit : AllFit arguments
      · have hlast : Misfits arguments last := by
          by_contra hlast
          exact h (all_fit_concat.mpr ⟨hfit, hlast⟩)
        exact ⟨arguments, last, [], rfl, hfit, hlast⟩
      · obtain ⟨before, argument, after, rfl, hfirst, hmisfits⟩ := ih hfit
        refine ⟨before, argument, after ++ [last], ?_, hfirst, hmisfits⟩
        rw [List.append_assoc, List.cons_append]

/-- An argument that does not fit is complained about, whatever flags were read before. -/
theorem add_of_misfits {options : PartialOptions} (h : Misfits before argument)
    (hfile : options.file = (plainArguments before).head?) :
    options.add argument = .error (complaint argument) := by
  cases h with
  | inl hunknown =>
      obtain ⟨hflag, hcheck, hquiet⟩ := hunknown
      rw [PartialOptions.add, if_neg hcheck, if_neg hquiet, if_pos hflag, complaint, if_pos hflag]
  | inr hextra =>
      obtain ⟨hplain, hearlier⟩ := hextra
      have hnot : ¬ isFlag argument = true := Bool.not_eq_true _ ▸ hplain
      have hcheck : argument ≠ "--check" := fun heq ↦ hnot (is_flag_of_known (Or.inl heq))
      have hquiet : argument ≠ "--quiet" := fun heq ↦ hnot (is_flag_of_known (Or.inr heq))
      have hsome : options.file.isSome = true := by
        rw [hfile, List.isSome_head?]
        exact plain_arguments_ne_nil.mpr hearlier
      rw [PartialOptions.add, if_neg hcheck, if_neg hquiet, if_neg hnot, if_pos hsome, complaint,
        if_neg hnot]

/-- The first misfit decides what arguments come to, whatever stands behind it. Without one, a file
is missing exactly if every argument is a flag. Otherwise just one is no flag, which is the file,
and each flag is set if it is among the arguments. So the order of the arguments counts for nothing
but the complaint. -/
theorem of_arguments_settled (arguments : List String) :
    (∀ before argument after, arguments = before ++ argument :: after → AllFit before →
        Misfits before argument → Options.ofArguments arguments = .error (complaint argument)) ∧
      (¬ AllFit arguments → ∃ before argument after, arguments = before ++ argument :: after ∧
        AllFit before ∧ Misfits before argument) ∧
      (AllFit arguments →
        (Options.ofArguments arguments = .error .missingFile ↔
            ∀ argument ∈ arguments, isFlag argument = true) ∧
          ∀ file ∈ arguments, isFlag file = false → plainArguments arguments = [file] ∧
            Options.ofArguments arguments =
              .ok ⟨file, decide ("--check" ∈ arguments), decide ("--quiet" ∈ arguments)⟩) ∧
      ∀ other options, arguments.Perm other → (Options.ofArguments arguments = .ok options ↔
        Options.ofArguments other = .ok options) := by
  refine ⟨?_, exists_first_misfit, fun hfit ↦ ⟨?_, ?_⟩, ?_⟩
  · intro before argument after hsplit hfit hmisfits
    rw [hsplit, Options.ofArguments, List.foldlM_append, fold_of_fit hfit]
    show ((argument :: after).foldlM PartialOptions.add _ >>= PartialOptions.finish) = _
    rw [List.foldlM_cons, add_of_misfits hmisfits rfl]
    rfl
  · rw [of_arguments_of_fit hfit, ← plain_arguments_eq_nil]
    cases plainArguments arguments <;> simp [PartialOptions.finish]
  · intro file hmem hplain
    have honly := plain_arguments_of_fit hfit hmem hplain
    refine ⟨honly, ?_⟩
    rw [of_arguments_of_fit hfit, honly]
    rfl
  · intro other options hperm
    constructor
    · intro haccepted
      exact of_arguments_perm haccepted (List.forall_mem_nil _) (by simpa using hperm)
    · intro haccepted
      exact of_arguments_perm haccepted (List.forall_mem_nil _) (by simpa using hperm.symm)

/-- Both arguments behind the file misfit, and the first of them is complained about. In another
order it would be the other one. -/
theorem of_arguments_settled_extra :
    Misfits ["--quiet", "a"] "b" ∧ Misfits ["--quiet", "a", "b"] "--all" ∧
      Options.ofArguments ["--quiet", "a", "b", "--all"] = .error (.extraArgument "b") ∧
      Options.ofArguments ["--quiet", "a", "--all", "b"] = .error (.unknownFlag "--all") := by
  have hfit : AllFit ["--quiet", "a"] := all_fit_iff.mpr ⟨by unfold FlagsKnown; decide, by decide⟩
  have hextra : Misfits ["--quiet", "a"] "b" := Or.inr (by decide)
  have hunknown (before : List String) : Misfits before "--all" := Or.inl (by decide)
  exact ⟨hextra, hunknown _, (of_arguments_settled _).1 _ _ ["--all"] rfl hfit hextra,
    (of_arguments_settled _).1 _ _ ["b"] rfl hfit (hunknown _)⟩

end Decaf
