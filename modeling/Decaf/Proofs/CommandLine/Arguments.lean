import Decaf.CommandLine.Options
import Mathlib.Data.List.Perm.Basic
import Mathlib.Tactic.SplitIfs

/-!
# Arguments in any order

Arguments are read from left to right, but what an accepted list asks for does not depend on their
order: it has one argument that is no flag, its flags are known, and each of them counts once
(`of_arguments_eq_ok`). Hence accepted arguments may be permuted and their flags repeated
(`of_arguments_perm`). A known flag only marks the options: it may stand anywhere in a list, also in
one that is not accepted (`of_arguments_insert`).
-/

namespace Decaf

/-- The arguments that are no flags. -/
def plainArguments (arguments : List String) : List String :=
  arguments.filter fun argument ↦ !isFlag argument

/-- Every flag among some arguments is one that the program has. -/
def FlagsKnown (arguments : List String) : Prop :=
  ∀ argument ∈ arguments, isFlag argument = true → argument = "--check" ∨ argument = "--quiet"

/-- What was read so far goes on to a result through some arguments. -/
@[mk_iff collects_iff]
structure PartialOptions.Collects (options : PartialOptions) (arguments : List String)
    (result : PartialOptions) : Prop where
  known : FlagsKnown arguments
  file : result.file.toList = options.file.toList ++ plainArguments arguments
  check : result.check = (options.check || decide ("--check" ∈ arguments))
  quiet : result.quiet = (options.quiet || decide ("--quiet" ∈ arguments))

/-- The known flags are flags. -/
theorem is_flag_of_known {argument : String} (h : argument = "--check" ∨ argument = "--quiet") :
    isFlag argument = true := by
  rcases h with rfl | rfl <;> decide

namespace PartialOptions

variable {options result : PartialOptions} {argument : String} {rest : List String}

/-- Nothing more is collected from no arguments. -/
theorem collects_nil : options.Collects [] result ↔ options = result := by
  constructor
  · intro h
    obtain ⟨file, check, quiet⟩ := options
    obtain ⟨-, hfile, hcheck, hquiet⟩ := h
    simp only [List.not_mem_nil, decide_false, Bool.or_false] at hcheck hquiet
    have hsame : result.file = file := by
      simpa [plainArguments] using congrArg List.head? hfile
    rw [← hsame, ← hcheck, ← hquiet]
  · rintro rfl
    exact ⟨List.forall_mem_nil _, (List.append_nil _).symm, (Bool.or_false _).symm,
      (Bool.or_false _).symm⟩

/-- A flag for checking is collected as a mark. -/
theorem collects_check : options.Collects ("--check" :: rest) result ↔
    { options with check := true }.Collects rest result := by
  have hflag := is_flag_of_known (Or.inl rfl)
  simp [collects_iff, FlagsKnown, plainArguments, hflag]

/-- A flag for quiet is collected as a mark. -/
theorem collects_quiet : options.Collects ("--quiet" :: rest) result ↔
    { options with quiet := true }.Collects rest result := by
  have hflag := is_flag_of_known (Or.inr rfl)
  simp [collects_iff, FlagsKnown, plainArguments, hflag]

/-- The first argument that is no flag is collected as the file. -/
theorem collects_file (hplain : isFlag argument = false) (hnone : options.file = .none) :
    options.Collects (argument :: rest) result ↔
      { options with file := some argument }.Collects rest result := by
  have hcheck : "--check" ≠ argument := by
    rintro rfl
    cases hplain
  have hquiet : "--quiet" ≠ argument := by
    rintro rfl
    cases hplain
  simp [collects_iff, FlagsKnown, plainArguments, hplain, hnone, hcheck, hquiet]

/-- No unknown flag is collected. -/
theorem not_collects_unknown (hflag : isFlag argument = true) (hcheck : argument ≠ "--check")
    (hquiet : argument ≠ "--quiet") : ¬ options.Collects (argument :: rest) result := by
  intro h
  rcases h.known argument List.mem_cons_self hflag with rfl | rfl
  · exact hcheck rfl
  · exact hquiet rfl

/-- No second argument that is no flag is collected. -/
theorem not_collects_extra (hplain : isFlag argument = false) (hfile : options.file ≠ .none) :
    ¬ options.Collects (argument :: rest) result := by
  intro h
  obtain ⟨file, hsome⟩ := Option.ne_none_iff_exists'.mp hfile
  have hplainFirst : plainArguments (argument :: rest) = argument :: plainArguments rest :=
    List.filter_cons_of_pos (by simp [hplain])
  have hlength := congrArg List.length h.file
  have hle := Option.length_toList_le (o := result.file)
  rw [hplainFirst, hsome, Option.toList_some, List.length_append, List.length_cons,
    List.length_cons] at hlength
  omega

/-- Arguments are accepted exactly if they are collected. -/
theorem fold_eq_ok {arguments : List String} :
    arguments.foldlM add options = .ok result ↔ options.Collects arguments result := by
  induction arguments generalizing options with
  | nil =>
      show Except.ok options = Except.ok result ↔ _
      rw [Except.ok.injEq, collects_nil]
  | cons argument arguments ih =>
      rw [List.foldlM_cons]
      by_cases hcheck : argument = "--check"
      · subst hcheck
        exact ih.trans collects_check.symm
      by_cases hquiet : argument = "--quiet"
      · subst hquiet
        exact ih.trans collects_quiet.symm
      cases hflag : isFlag argument with
      | true =>
          rw [add, if_neg hcheck, if_neg hquiet, if_pos hflag]
          exact iff_of_false nofun (not_collects_unknown hflag hcheck hquiet)
      | false =>
          by_cases hfile : options.file = .none
          · rw [add, if_neg hcheck, if_neg hquiet, if_neg (by simp [hflag]),
              if_neg (by simp [hfile])]
            exact ih.trans (collects_file hflag hfile).symm
          · rw [add, if_neg hcheck, if_neg hquiet, if_neg (by simp [hflag]),
              if_pos (Option.isSome_iff_ne_none.mpr hfile)]
            exact iff_of_false nofun (not_collects_extra hflag hfile)

end PartialOptions

/-- Arguments are accepted exactly if their flags are known and one of them is no flag, which is
the file. Each flag is set if it is among them. -/
theorem of_arguments_eq_ok {arguments : List String} {options : Options} :
    Options.ofArguments arguments = .ok options ↔
      FlagsKnown arguments ∧ plainArguments arguments = [options.file] ∧
        options.check = decide ("--check" ∈ arguments) ∧
        options.quiet = decide ("--quiet" ∈ arguments) := by
  constructor
  · intro h
    unfold Options.ofArguments at h
    cases hfold : arguments.foldlM PartialOptions.add PartialOptions.none with
    | error error =>
        rw [hfold] at h
        cases h
    | ok result =>
        obtain ⟨hknown, hfile, hcheck, hquiet⟩ := PartialOptions.fold_eq_ok.mp hfold
        rw [hfold] at h
        change result.finish = .ok options at h
        unfold PartialOptions.finish at h
        split at h
        · next file hsome =>
          cases h
          rw [hsome] at hfile
          exact ⟨hknown, hfile.symm, hcheck, hquiet⟩
        · cases h
  · intro h
    obtain ⟨hknown, hplain, hcheck, hquiet⟩ := h
    have hfold : arguments.foldlM PartialOptions.add PartialOptions.none =
        .ok ⟨some options.file, options.check, options.quiet⟩ :=
      PartialOptions.fold_eq_ok.mpr ⟨hknown, hplain.symm, hcheck, hquiet⟩
    rw [Options.ofArguments, hfold]
    rfl

/-- Accepted arguments may be permuted, and their flags may be repeated. -/
theorem of_arguments_perm {arguments repeated other : List String} {options : Options}
    (haccepted : Options.ofArguments arguments = .ok options)
    (hrepeated : ∀ flag ∈ repeated, isFlag flag = true ∧ flag ∈ arguments)
    (hperm : (arguments ++ repeated).Perm other) : Options.ofArguments other = .ok options := by
  obtain ⟨hknown, hplain, hcheck, hquiet⟩ := of_arguments_eq_ok.mp haccepted
  have hmem (argument : String) : argument ∈ other ↔ argument ∈ arguments := by
    rw [← hperm.mem_iff, List.mem_append]
    exact or_iff_left_of_imp fun hmem ↦ (hrepeated argument hmem).2
  have hnone : plainArguments repeated = [] :=
    List.filter_eq_nil_iff.mpr fun flag hflag ↦ by simp [(hrepeated flag hflag).1]
  have hfile :
      (plainArguments arguments ++ plainArguments repeated).Perm (plainArguments other) := by
    rw [plainArguments, plainArguments, ← List.filter_append]
    exact hperm.filter _
  rw [hplain, hnone] at hfile
  refine of_arguments_eq_ok.mpr ⟨fun argument hargument ↦ ?_, ?_, ?_, ?_⟩
  · exact hknown argument ((hmem argument).mp hargument)
  · exact hfile.singleton_eq.symm
  · rw [hcheck, decide_eq_decide, hmem]
  · rw [hquiet, decide_eq_decide, hmem]

section

variable {mark : PartialOptions → PartialOptions} {markAll : Options → Options} {flag : String}

/-- A mark that no argument looks at may be set before some arguments are read or behind them. -/
theorem fold_mark
    (hadd : ∀ options argument,
      (mark options).add argument = (options.add argument).map mark)
    (arguments : List String) (options : PartialOptions) :
    arguments.foldlM PartialOptions.add (mark options) =
      (arguments.foldlM PartialOptions.add options).map mark := by
  induction arguments generalizing options with
  | nil => rfl
  | cons argument arguments ih =>
      rw [List.foldlM_cons, List.foldlM_cons, hadd]
      cases options.add argument with
      | error error => rfl
      | ok next => exact ih next

/-- A flag that sets such a mark may stand anywhere among the arguments. -/
theorem of_arguments_insert
    (hflag : ∀ options : PartialOptions, options.add flag = .ok (mark options))
    (hadd : ∀ options argument,
      (mark options).add argument = (options.add argument).map mark)
    (hfinish : ∀ options, (mark options).finish = options.finish.map markAll)
    (front back : List String) :
    Options.ofArguments (front ++ flag :: back) =
      (Options.ofArguments (front ++ back)).map markAll := by
  unfold Options.ofArguments
  rw [List.foldlM_append, List.foldlM_append]
  cases front.foldlM PartialOptions.add PartialOptions.none with
  | error error => rfl
  | ok middle =>
      show (flag :: back).foldlM PartialOptions.add middle >>= PartialOptions.finish =
        (back.foldlM PartialOptions.add middle >>= PartialOptions.finish).map markAll
      rw [List.foldlM_cons, hflag]
      show back.foldlM PartialOptions.add (mark middle) >>= PartialOptions.finish = _
      rw [fold_mark hadd]
      cases back.foldlM PartialOptions.add middle with
      | error error => rfl
      | ok last => exact hfinish last

end

/-- The flag for checking only asks for the check, wherever it stands. -/
theorem of_arguments_check (front back : List String) :
    Options.ofArguments (front ++ "--check" :: back) =
      (Options.ofArguments (front ++ back)).map fun options ↦ { options with check := true } := by
  refine of_arguments_insert (fun options ↦ if_pos rfl) (fun options argument ↦ ?_)
    (fun options ↦ ?_) front back
  · unfold PartialOptions.add
    split_ifs <;> rfl
  · unfold PartialOptions.finish
    cases options.file <;> rfl

/-- The flag for quiet only leaves out the listing, wherever it stands. -/
theorem of_arguments_quiet (front back : List String) :
    Options.ofArguments (front ++ "--quiet" :: back) =
      (Options.ofArguments (front ++ back)).map fun options ↦ { options with quiet := true } := by
  refine of_arguments_insert (fun options ↦ rfl) (fun options argument ↦ ?_)
    (fun options ↦ ?_) front back
  · unfold PartialOptions.add
    split_ifs <;> rfl
  · unfold PartialOptions.finish
    cases options.file <;> rfl

end Decaf
