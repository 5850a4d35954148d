import Decaf.CommandLine.Folder
import Decaf.CommandLine.Options
import Decaf.Diagnostic.Excerpt
import Decaf.Recognizer.Program
import Decaf.Scanner.Scan

/-!
# What a run reports

A run reads its arguments, reads one file, scans it, and recognizes its grammar if asked to. The
report is what the run prints and the status it ends with: two for wrong arguments, one for a file
that cannot be read or has anything wrong with it, and zero otherwise. `respond` leaves the reading
of the file to its caller.
-/

namespace Decaf

/-- The status of a run and what it prints. -/
structure Report where
  status : Nat
  stdout : String
  stderr : String
deriving DecidableEq, Repr

/-- The token listing of a scan, a line for each token. -/
def Scan.listing (scan : Scan) : String :=
  String.join (scan.tokens.map fun token ↦ token.listing ++ "\n")

/-- The diagnostics of a scan in full, one after the other. -/
def Scan.renderDiagnostics (scan : Scan) (source : String) : String :=
  String.join (scan.diagnostics.map fun diagnostic ↦ diagnostic.render source)

namespace Report

/-- The report on wrong arguments. -/
def ofUsageError (error : UsageError) : Report :=
  ⟨2, "", error.message ++ "\n" ++ usage ++ "\n"⟩

/-- The report on a file that cannot be read. -/
def ofReadFault (fault : ReadFault) (path : String) : Report :=
  ⟨1, "", fault.report path ++ "\n"⟩

/-- The report on the grammar of scanned tokens. -/
def ofVerdict (verdict : Verdict Nat) (source : String) : Report :=
  match verdict with
  | .accepted _ => ⟨0, "syntax ok\n", ""⟩
  | .rejected error => ⟨1, "", error.render source⟩
  | .stalled => ⟨1, "", ""⟩

/-- Two reports in one: both print, and the higher status stands. -/
def append (first second : Report) : Report :=
  ⟨max first.status second.status, first.stdout ++ second.stdout, first.stderr ++ second.stderr⟩

/-- The report on a source text: the listing unless it is not wanted, every diagnostic, and the
verdict on the grammar if it is asked for. -/
def ofSource (options : Options) (source : String) : Report :=
  let scan := tokenize source options.file
  let scanned : Report :=
    ⟨if scan.hasFaults then 1 else 0, if options.quiet then "" else scan.listing,
      scan.renderDiagnostics source⟩
  if options.check then scanned.append (ofVerdict (parse scan.tokens options.file).2 source)
  else scanned

end Report

/-- Runs the program on its arguments, given a way to read a file. -/
def respond {m : Type → Type} [Monad m] (read : String → m (Except ReadFault String))
    (arguments : List String) : m Report :=
  match Options.ofArguments arguments with
  | .error error => pure (.ofUsageError error)
  | .ok options => do
    match ← read options.file with
    | .error fault => pure (.ofReadFault fault options.file)
    | .ok source => pure (.ofSource options source)

/-- Runs the program in a folder. -/
def respondIn (folder : Folder) (arguments : List String) : Report :=
  Id.run (respond (fun path ↦ pure (folder.read path)) arguments)

end Decaf
