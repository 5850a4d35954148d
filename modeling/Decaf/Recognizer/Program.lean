import Decaf.Recognizer.Run

/-!
# Whole programs

A program is a sequence of declarations up to the end of input. `parse` recognizes the declarations
of a list of tokens one after the other and counts them, or stops at the first error.
-/

namespace Decaf

namespace Recognizer

/-- Recognizes declarations up to the end of input and counts them from `count` on. A declaration
that takes no token would repeat without end, so it counts as stalled. -/
def declarations (recognizer : Recognizer) (count : Nat) : Recognizer × Verdict Nat :=
  if recognizer.hasTokens then
    match recognizer.recognize [.rule .declaration] with
    | (next, .accepted ()) =>
      if h : next.after.length < recognizer.after.length then next.declarations (count + 1)
      else (next, .stalled)
    | (next, .rejected error) => (next, .rejected error)
    | (next, .stalled) => (next, .stalled)
  else (recognizer, .accepted count)
termination_by recognizer.after.length
decreasing_by exact h

end Recognizer

/-- Recognizes a list of tokens as a Decaf program. The result is the recognizer where it stopped,
with the number of declarations or the first error. -/
def parse (tokens : List Token) (file : String) : Recognizer × Verdict Nat :=
  Recognizer.declarations { Recognizer.start tokens file with tables := .standard } 0

end Decaf
