import Decaf.CommandLine.Report
import Decaf.Proofs.CommandLine.Arguments
import Decaf.Proofs.Recognizer.Relevance

/-!
# What flags do to a report

A run opens a source when its arguments are accepted and their file can be read (`Opens`); otherwise
its report says why not, and flags change nothing in it. On a source the flags act independently of
each other and of what is found: quiet leaves out the listing (`of_source_quiet`), and a check adds
its verdict behind everything else (`of_source_check`). `flags_orthogonal` compares whole runs, with
the arguments in any order.
-/

namespace Decaf

/-- The report of a run, given what each file reads as. -/
def respondTo (read : String → Except ReadFault String) (arguments : List String) : Report :=
  Id.run (respond (fun path ↦ pure (read path)) arguments)

/-- A run with some arguments gets to a source text. -/
structure Opens (read : String → Except ReadFault String) (arguments : List String)
    (options : Options) (source : String) : Prop where
  accepted : Options.ofArguments arguments = .ok options
  readable : read options.file = .ok source

/-- One report is another without a part that is printed first. -/
structure Report.Hushes (plain quieted : Report) (dump : String) : Prop where
  status : quieted.status = plain.status
  stdout : plain.stdout = dump ++ quieted.stdout
  stderr : quieted.stderr = plain.stderr

/-- One report is another with the verdict on the grammar behind it: a line if the grammar is right,
and otherwise the report of the syntax error, which fails the run. -/
def Report.Checks (plain checked : Report) (verdict : Verdict Nat) (source : String) : Prop :=
  (∃ count, verdict = .accepted count ∧
      checked = { plain with stdout := plain.stdout ++ "syntax ok\n" }) ∨
    ∃ error, verdict = .rejected error ∧
      checked = ⟨1, plain.stdout, plain.stderr ++ error.render source⟩

/-! ## Reports on a source -/

/-- Every parse ends with a verdict. -/
theorem parse_settles (tokens : List Token) (file : String) :
    (∃ count, (parse tokens file).2 = .accepted count) ∨
      ∃ error, (parse tokens file).2 = .rejected error := by
  have hsettles : (parse tokens file).2 ≠ .stalled :=
    Recognizer.declarations_ne_stalled (Recognizer.tables_ready tokens file)
      (Recognizer.ends_input_ready tokens file) 0
  cases hverdict : (parse tokens file).2 with
  | accepted count => exact Or.inl ⟨count, rfl⟩
  | rejected error => exact Or.inr ⟨error, rfl⟩
  | stalled => exact absurd hverdict hsettles

namespace Report

variable {options : Options} {source : String}

/-- A report that does not check has only the diagnostics among its errors. -/
theorem of_source_stderr (hcheck : options.check = false) :
    (ofSource options source).stderr = (tokenize source options.file).renderDiagnostics source := by
  simp [ofSource, hcheck]

/-- On a source, quiet leaves out the listing. -/
theorem of_source_quiet (hquiet : options.quiet = false) :
    (ofSource options source).Hushes (ofSource { options with quiet := true } source)
      (tokenize source options.file).listing := by
  cases hcheck : options.check with
  | false => constructor <;> simp [ofSource, hcheck, hquiet]
  | true => constructor <;> simp [ofSource, hcheck, hquiet, append]

/-- The status of a report that does not check tells whether anything was diagnosed. -/
theorem of_source_scanned (hcheck : options.check = false) :
    (ofSource options source).status =
      if (tokenize source options.file).diagnostics = [] then 0 else 1 := by
  simp [ofSource, hcheck, Scan.hasFaults]

/-- On a source, a check adds its verdict. -/
theorem of_source_check (hcheck : options.check = false) :
    (ofSource options source).Checks (ofSource { options with check := true } source)
      (parse (tokenize source options.file).tokens options.file).2 source := by
  have happend : ofSource { options with check := true } source =
      (ofSource options source).append
        (ofVerdict (parse (tokenize source options.file).tokens options.file).2 source) := by
    simp [ofSource, hcheck]
  rcases parse_settles (tokenize source options.file).tokens options.file with
    ⟨count, haccepted⟩ | ⟨error, hrejected⟩
  · refine Or.inl ⟨count, haccepted, ?_⟩
    rw [happend, haccepted]
    simp [append, ofVerdict]
  · have hstatus : max (ofSource options source).status 1 = 1 := by
      rw [of_source_scanned hcheck]
      split <;> rfl
    refine Or.inr ⟨error, hrejected, ?_⟩
    rw [happend, hrejected]
    simp [append, ofVerdict, hstatus]

/-- On a source a run succeeds if nothing is diagnosed and the grammar is right or not checked. -/
theorem of_source_status (options : Options) (source : String) :
    (ofSource options source).status = 0 ↔ (tokenize source options.file).diagnostics = [] ∧
      (options.check = false ∨
        ∃ count, (parse (tokenize source options.file).tokens options.file).2 =
          .accepted count) := by
  obtain ⟨file, check, quiet⟩ := options
  cases check with
  | false =>
      rw [of_source_scanned rfl]
      simp
  | true =>
      have hscanned : (ofSource ⟨file, false, quiet⟩ source).status = _ := of_source_scanned rfl
      have hchecks : (ofSource ⟨file, false, quiet⟩ source).Checks
          (ofSource ⟨file, true, quiet⟩ source) (parse (tokenize source file).tokens file).2
          source := of_source_check rfl
      rcases hchecks with ⟨count, haccepted, heq⟩ | ⟨error, hrejected, heq⟩
      · rw [heq, haccepted]
        show (ofSource ⟨file, false, quiet⟩ source).status = 0 ↔ _
        rw [hscanned]
        simp
      · rw [heq, hrejected]
        simp

end Report

/-! ## Runs -/

section

variable {read : String → Except ReadFault String} {options : Options}

/-- The report of a run with options, once its file is read. -/
def reportOn (read : String → Except ReadFault String) (options : Options) : Report :=
  match read options.file with
  | .error fault => .ofReadFault fault options.file
  | .ok source => .ofSource options source

/-- A file that cannot be read is reported. -/
theorem report_on_fault {fault : ReadFault} (h : read options.file = .error fault) :
    reportOn read options = .ofReadFault fault options.file := by
  rw [reportOn, h]

/-- A source is reported on. -/
theorem report_on_source {source : String} (h : read options.file = .ok source) :
    reportOn read options = .ofSource options source := by
  rw [reportOn, h]

/-- Wrong arguments are reported. -/
theorem respond_of_error {arguments : List String} {error : UsageError}
    (h : Options.ofArguments arguments = .error error) :
    respondTo read arguments = .ofUsageError error := by
  unfold respondTo respond
  rw [h]
  rfl

/-- Accepted arguments lead to the file that they name. -/
theorem respond_of_ok {arguments : List String} (h : Options.ofArguments arguments = .ok options) :
    respondTo read arguments = reportOn read options := by
  unfold respondTo respond reportOn
  rw [h]
  cases hread : read options.file with
  | error fault =>
      show Id.run (match read options.file with | .error _ => _ | .ok _ => _) = _
      rw [hread]
      rfl
  | ok source =>
      show Id.run (match read options.file with | .error _ => _ | .ok _ => _) = _
      rw [hread]
      rfl

/-- A source that a run gets to is reported on. -/
theorem Opens.respond {arguments : List String} {source : String}
    (h : Opens read arguments options source) :
    respondTo read arguments = .ofSource options source :=
  (respond_of_ok h.accepted).trans (report_on_source h.readable)

/-- A flag is set if it is among the arguments. -/
theorem Opens.flags {arguments : List String} {source : String}
    (h : Opens read arguments options source) :
    options.check = decide ("--check" ∈ arguments) ∧
      options.quiet = decide ("--quiet" ∈ arguments) :=
  (of_arguments_eq_ok.mp h.accepted).2.2

end

section

variable {read : String → Except ReadFault String} {arguments marked : List String}
variable {mark : Options → Options}

/-- Arguments that ask for the same file get to the same source. -/
theorem opens_marked {options : Options} {source : String}
    (h : Opens read arguments options source)
    (hmark : Options.ofArguments marked = (Options.ofArguments arguments).map mark)
    (hfile : ∀ options, (mark options).file = options.file) :
    Opens read marked (mark options) source where
  accepted := by
    rw [hmark, h.accepted]
    rfl
  readable := by rw [hfile, h.readable]

/-- Arguments that ask for the same file do not get to a source for the same reason. -/
theorem respond_of_closed
    (hclosed : ¬ ∃ options source, Opens read arguments options source)
    (hmark : Options.ofArguments marked = (Options.ofArguments arguments).map mark)
    (hfile : ∀ options, (mark options).file = options.file) :
    respondTo read marked = respondTo read arguments := by
  cases haccepted : Options.ofArguments arguments with
  | error error =>
      rw [haccepted] at hmark
      rw [respond_of_error hmark, respond_of_error haccepted]
  | ok options =>
      rw [haccepted] at hmark
      rw [respond_of_ok hmark, respond_of_ok haccepted]
      cases hread : read options.file with
      | error fault =>
          have hmarked : read (mark options).file = .error fault := by rwa [hfile]
          rw [report_on_fault hmarked, report_on_fault hread, hfile]
      | ok source => exact absurd ⟨options, source, haccepted, hread⟩ hclosed

end

section

variable {read : String → Except ReadFault String} {options : Options} {source : String}
variable (front back : List String)

/-- On a source, quiet leaves out the listing. -/
theorem respond_quiet (h : Opens read (front ++ back) options source)
    (hquiet : "--quiet" ∉ front ++ back) :
    (respondTo read (front ++ back)).Hushes (respondTo read (front ++ "--quiet" :: back))
      (tokenize source options.file).listing := by
  have hmarked := opens_marked h (of_arguments_quiet front back) fun _ ↦ rfl
  rw [h.respond, hmarked.respond]
  exact Report.of_source_quiet (by rw [h.flags.2, decide_eq_false hquiet])

/-- On a source, a check adds its verdict. -/
theorem respond_check (h : Opens read (front ++ back) options source)
    (hcheck : "--check" ∉ front ++ back) :
    (respondTo read (front ++ back)).stderr =
        (tokenize source options.file).renderDiagnostics source ∧
      (respondTo read (front ++ back)).Checks (respondTo read (front ++ "--check" :: back))
        (parse (tokenize source options.file).tokens options.file).2 source := by
  have hmarked := opens_marked h (of_arguments_check front back) fun _ ↦ rfl
  have hoff : options.check = false := by rw [h.flags.1, decide_eq_false hcheck]
  rw [h.respond, hmarked.respond]
  exact ⟨Report.of_source_stderr hoff, Report.of_source_check hoff⟩

/-- Accepted arguments in another order, and with flags repeated, lead to the same report. -/
theorem respond_perm {arguments repeated other : List String}
    (haccepted : Options.ofArguments arguments = .ok options)
    (hrepeated : ∀ flag ∈ repeated, isFlag flag = true ∧ flag ∈ arguments)
    (hperm : (arguments ++ repeated).Perm other) :
    respondTo read other = respondTo read arguments := by
  have hother := of_arguments_perm haccepted hrepeated hperm
  rw [respond_of_ok hother, respond_of_ok haccepted]

/-- A check does not make a failed run succeed. -/
theorem respond_check_failed (h : (respondTo read (front ++ back)).status = 1) :
    (respondTo read (front ++ "--check" :: back)).status = 1 := by
  by_cases hopens : ∃ options source, Opens read (front ++ back) options source
  · obtain ⟨options, source, hopens⟩ := hopens
    by_cases hcheck : "--check" ∈ front ++ back
    · have hrepeated : ∀ flag ∈ ["--check"], isFlag flag = true ∧ flag ∈ front ++ back :=
        List.forall_mem_singleton.mpr ⟨is_flag_of_known (Or.inl rfl), hcheck⟩
      have hperm : (front ++ back ++ ["--check"]).Perm (front ++ "--check" :: back) :=
        (List.perm_append_singleton _ _).trans List.perm_middle.symm
      rwa [respond_perm hopens.accepted hrepeated hperm]
    · rcases (respond_check front back hopens hcheck).2 with ⟨count, -, heq⟩ | ⟨error, -, heq⟩
      · rwa [heq]
      · rw [heq]
  · rwa [respond_of_closed hopens (of_arguments_check front back) fun _ ↦ rfl]

end

/-- The flags act independently of each other and of their place. Wrong arguments and unreadable
files have a status of their own and print nothing, and flags change nothing in that. On a source
the status is zero if nothing is diagnosed and the grammar is right or not checked. Quiet leaves out
the listing and nothing else. A check adds its verdict behind all that is printed without it, and
never makes a failed run succeed. Accepted arguments may be permuted and their flags repeated. -/
theorem flags_orthogonal (read : String → Except ReadFault String) :
    (∀ arguments error, Options.ofArguments arguments = .error error →
        (respondTo read arguments).status = 2 ∧ (respondTo read arguments).stdout = "") ∧
      (∀ arguments options fault, Options.ofArguments arguments = .ok options →
        read options.file = .error fault →
          (respondTo read arguments).status = 1 ∧ (respondTo read arguments).stdout = "") ∧
      (∀ arguments options source, Opens read arguments options source →
        ((respondTo read arguments).status = 0 ↔
          (tokenize source options.file).diagnostics = [] ∧ ("--check" ∉ arguments ∨
            ∃ count, (parse (tokenize source options.file).tokens options.file).2 =
              .accepted count))) ∧
      (∀ front back,
        (∀ options source, Opens read (front ++ back) options source →
          "--quiet" ∉ front ++ back →
            (respondTo read (front ++ back)).Hushes (respondTo read (front ++ "--quiet" :: back))
              (tokenize source options.file).listing) ∧
        ((¬ ∃ options source, Opens read (front ++ back) options source) →
          respondTo read (front ++ "--quiet" :: back) = respondTo read (front ++ back))) ∧
      (∀ front back,
        (∀ options source, Opens read (front ++ back) options source →
          "--check" ∉ front ++ back →
            (respondTo read (front ++ back)).stderr =
                (tokenize source options.file).renderDiagnostics source ∧
              (respondTo read (front ++ back)).Checks
                (respondTo read (front ++ "--check" :: back))
                (parse (tokenize source options.file).tokens options.file).2 source) ∧
        ((¬ ∃ options source, Opens read (front ++ back) options source) →
          respondTo read (front ++ "--check" :: back) = respondTo read (front ++ back)) ∧
        ((respondTo read (front ++ back)).status = 1 →
          (respondTo read (front ++ "--check" :: back)).status = 1)) ∧
      ∀ arguments options repeated other, Options.ofArguments arguments = .ok options →
        (∀ flag ∈ repeated, isFlag flag = true ∧ flag ∈ arguments) →
          (arguments ++ repeated).Perm other →
            respondTo read other = respondTo read arguments := by
  refine ⟨fun arguments error h ↦ ?_, fun arguments options fault h hread ↦ ?_,
    fun arguments options source h ↦ ?_, fun front back ↦ ⟨?_, fun hclosed ↦ ?_⟩,
    fun front back ↦ ⟨?_, fun hclosed ↦ ?_, respond_check_failed front back⟩,
    fun arguments options repeated other ↦ respond_perm⟩
  · rw [respond_of_error h]
    exact ⟨rfl, rfl⟩
  · rw [respond_of_ok h, report_on_fault hread]
    exact ⟨rfl, rfl⟩
  · have hoff : options.check = false ↔ "--check" ∉ arguments := by
      rw [h.flags.1, decide_eq_false_iff_not]
    rw [h.respond, Report.of_source_status, hoff]
  · exact fun options source ↦ respond_quiet front back
  · exact respond_of_closed hclosed (of_arguments_quiet front back) fun _ ↦ rfl
  · exact fun options source ↦ respond_check front back
  · exact respond_of_closed hclosed (of_arguments_check front back) fun _ ↦ rfl

/-- A place for files with a single one in it, which has a fault in its characters and another in
its grammar. -/
def faultyFile (path : String) : Except ReadFault String :=
  if path = "a" then .ok "int x )#" else .error .notFound

/-- Runs on the faulty file, on none and with wrong arguments. -/
theorem flags_orthogonal_faulty :
    (respondTo faultyFile ["a", "--fast"]).status = 2 ∧
      (respondTo faultyFile ["b", "--check"]).stdout = "" ∧
      (respondTo faultyFile ["a"]).status ≠ 0 ∧
      (respondTo faultyFile ["a"]).Hushes (respondTo faultyFile ["a", "--quiet"])
        (tokenize "int x )#" "a").listing ∧
      respondTo faultyFile ["b", "--quiet"] = respondTo faultyFile ["b"] ∧
      (respondTo faultyFile ["a"]).Checks (respondTo faultyFile ["--check", "a"])
        (parse (tokenize "int x )#" "a").tokens "a").2 "int x )#" ∧
      respondTo faultyFile ["--check", "b"] = respondTo faultyFile ["b"] ∧
      (respondTo faultyFile ["b", "--check"]).status = 1 ∧
      respondTo faultyFile ["--check", "a", "--check"] = respondTo faultyFile ["a", "--check"] := by
  obtain ⟨husage, hfault, hstatus, hquiet, hcheck, hperm⟩ := flags_orthogonal faultyFile
  have hopens : Opens faultyFile ["a"] ⟨"a", false, false⟩ "int x )#" := ⟨rfl, rfl⟩
  have hclosed : ¬ ∃ options source, Opens faultyFile ["b"] options source := by
    rintro ⟨options, source, haccepted, hreadable⟩
    cases haccepted
    cases hreadable
  have hdiagnosed : (tokenize "int x )#" "a").diagnostics ≠ [] := by decide +kernel
  refine ⟨(husage _ (.unknownFlag "--fast") rfl).1,
    (hfault _ ⟨"b", true, false⟩ .notFound rfl rfl).2, ?_,
    (hquiet ["a"] []).1 _ _ hopens (by decide), (hquiet ["b"] []).2 hclosed,
    ((hcheck [] ["a"]).1 _ _ hopens (by decide)).2, (hcheck [] ["b"]).2.1 hclosed,
    (hcheck ["b"] []).2.2 (hfault _ ⟨"b", false, false⟩ .notFound rfl rfl).1, ?_⟩
  · intro hzero
    exact hdiagnosed ((hstatus _ _ _ hopens).mp hzero).1
  · refine hperm ["a", "--check"] ⟨"a", true, false⟩ ["--check"] _ rfl ?_ (by decide)
    exact List.forall_mem_singleton.mpr ⟨by decide, by decide⟩

end Decaf
