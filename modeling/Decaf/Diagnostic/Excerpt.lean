import Decaf.Diagnostic.Basic
import Decaf.Source.Line
import Decaf.Text.Blank

/-!
# Source excerpts

The full report of a diagnostic shows its name and hint, the file, and the line of source it
concerns, with a caret under the offending column. The line is shown without its leading spaces
and without white space at its end; the caret moves left by as many columns as spaces were dropped.
-/

namespace Decaf

/-- A text set flush right in a field, filled with spaces on the left. -/
def flushRight (width : Nat) (text : String) : String :=
  String.ofList (List.replicate (width - text.length) ' ') ++ text

/-- A caret in the given column, counted from one, at the end of a rule of dashes. -/
def caret (column : Nat) : String :=
  String.ofList (List.replicate (column - 1) '-') ++ "^"

namespace Diagnostic

/-- The head line: the name of the cause, with the hint in parentheses if there is one. -/
def headline (diagnostic : Diagnostic) : String :=
  match diagnostic.cause.tip? with
  | some tip => "Error: " ++ diagnostic.cause.name ++ " (" ++ tip ++ ")\n"
  | none => "Error: " ++ diagnostic.cause.name ++ "\n"

/-- The lines that show a line of source and point at a column of it. The number of the line sets
the width of the margin. -/
def excerpt (line : LineAt) (column : Nat) : String :=
  let number := toString line.number
  let margin := flushRight (number.length + 2) "|"
  let indent := (line.text.takeWhile (· = ' ')).length
  let shown := String.ofList (trimEnd (line.text.drop indent))
  margin ++ "\n" ++ number ++ " | " ++ shown ++ "\n" ++
    margin ++ " " ++ caret (max (column - indent) 1) ++ "\n"

/-- The full report of a diagnostic against its source. A position outside the source has no
excerpt. -/
def render (diagnostic : Diagnostic) (source : String) : String :=
  let head := diagnostic.headline ++ "-> " ++ diagnostic.span.file ++ "\n"
  match lineAt? source.toList diagnostic.position.offset with
  | some line => head ++ excerpt line diagnostic.position.column
  | none => head

end Diagnostic

end Decaf
