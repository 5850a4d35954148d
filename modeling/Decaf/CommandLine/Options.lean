/-!
# Command line arguments

One file and two flags, in any order. Arguments are read from left to right, and the first one that
does not fit decides the error; only then does a missing file count.
-/

namespace Decaf

/-- What a run of the program is asked to do: the file to read, whether to recognize the grammar,
and whether to leave out the token listing. -/
structure Options where
  file : String
  check : Bool
  quiet : Bool
deriving DecidableEq, Repr

/-- What can be wrong with the arguments. -/
inductive UsageError where
  | missingFile
  | unknownFlag (flag : String)
  | extraArgument (argument : String)
deriving DecidableEq, Repr

namespace UsageError

/-- The name of a usage error. -/
def name : UsageError → String
  | missingFile => "MissingFile"
  | unknownFlag _ => "UnknownFlag"
  | extraArgument _ => "ExtraArgument"

/-- A usage error in one line. -/
def message : UsageError → String
  | missingFile => "missing source file"
  | unknownFlag flag => "unknown flag " ++ flag
  | extraArgument argument => "unexpected argument " ++ argument

end UsageError

/-- How the program is called. -/
def usage : String := "usage: decaf-frontend <FILE> [--check] [--quiet]"

/-- A flag starts with two dashes. -/
def isFlag (argument : String) : Bool :=
  ['-', '-'].isPrefixOf argument.toList

/-- The options read so far. -/
structure PartialOptions where
  file : Option String
  check : Bool
  quiet : Bool
deriving DecidableEq, Repr

namespace PartialOptions

/-- Nothing read yet. -/
def none : PartialOptions := ⟨.none, false, false⟩

/-- Reads one more argument. A flag may be repeated, the file may not. -/
def add (options : PartialOptions) (argument : String) : Except UsageError PartialOptions :=
  if argument = "--check" then .ok { options with check := true }
  else if argument = "--quiet" then .ok { options with quiet := true }
  else if isFlag argument then .error (.unknownFlag argument)
  else if options.file.isSome then .error (.extraArgument argument)
  else .ok { options with file := some argument }

/-- The options of a run, once all arguments are read. -/
def finish (options : PartialOptions) : Except UsageError Options :=
  match options.file with
  | some file => .ok ⟨file, options.check, options.quiet⟩
  | .none => .error .missingFile

end PartialOptions

/-- Reads the arguments of a run, without the program's name. -/
def Options.ofArguments (arguments : List String) : Except UsageError Options :=
  arguments.foldlM PartialOptions.add PartialOptions.none >>= PartialOptions.finish

end Decaf
