import Decaf.CommandLine.Report

/-!
# The program

Runs the front end on the real file system: reads the file it is given, prints the report, and ends
with the report's status.
-/

namespace Decaf

/-- The reason for a failure, as the operating system words and numbers it. -/
def faultOfSystem : IO.Error → ReadFault
  | .noFileOrDirectory _ code reason | .interrupted _ code reason =>
    .other (reason ++ " (os error " ++ toString code ++ ")")
  | .alreadyExists _ code reason | .invalidArgument _ code reason
  | .permissionDenied _ code reason | .resourceExhausted _ code reason
  | .inappropriateType _ code reason | .noSuchThing _ code reason =>
    .other (reason ++ " (os error " ++ toString code ++ ")")
  | .otherError code reason | .resourceBusy code reason | .resourceVanished code reason
  | .unsupportedOperation code reason | .hardwareFault code reason
  | .unsatisfiedConstraints code reason | .illegalOperation code reason
  | .protocolError code reason | .timeExpired code reason =>
    .other (reason ++ " (os error " ++ toString code ++ ")")
  | .unexpectedEof => .other "unexpected end of file"
  | .userError reason => .other reason

/-- Reads a file as text. -/
def readFromDisk (path : String) : IO (Except ReadFault String) := do
  let bytes ← (do (← IO.FS.Handle.mk path .read).readBinToEnd : IO ByteArray).toBaseIO
  match bytes with
  | .ok bytes => return Folder.decode bytes
  | .error error => return .error (faultOfSystem error)

end Decaf

/-- Runs the program on its arguments. -/
def main (arguments : List String) : IO UInt32 := do
  let report ← Decaf.respond Decaf.readFromDisk arguments
  IO.print report.stdout
  IO.eprint report.stderr
  return report.status.toUInt32
