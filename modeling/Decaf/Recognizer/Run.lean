import Decaf.Grammar.Goal
import Decaf.Recognizer.Basic

/-!
# Running an agenda

A recognizer works off an agenda of goals, one move at a time. It accepts when the agenda is empty,
rejects at the first token that does not fit, and stalls when the moves run out. A recognizer with
the tables of Decaf never stalls: a goal comes down to a token, a refusal or nothing within a few
moves, so the moves granted by `patience` are far more than it can make. Other tables may send a
recognizer round in a circle without taking a token.
-/

namespace Decaf

/-- How recognition ended: with a result, with the first error, or not at all. -/
inductive Verdict (α : Type) where
  | accepted (result : α)
  | rejected (error : Diagnostic)
  | stalled
deriving DecidableEq, Repr

namespace Recognizer

/-- One level deeper. -/
def descend (recognizer : Recognizer) : Recognizer :=
  { recognizer with depth := recognizer.depth + 1 }

/-- A number of levels up. -/
def ascend (recognizer : Recognizer) (levels : Nat) : Recognizer :=
  { recognizer with depth := recognizer.depth - levels }

/-- Works on one goal, in front of the rest of the agenda. The result is the recognizer after the
move with what is then left to do, or the error at the current token. -/
def step (recognizer : Recognizer) (goal : Goal) (rest : List Goal) :
    Except Diagnostic (Recognizer × List Goal) :=
  match recognizer.tables.move recognizer.kind goal with
  | .take => .ok (recognizer.advance, rest)
  | .expand goals => .ok (recognizer, goals ++ rest)
  | .nest goals =>
    if recognizer.depth < nestingLimit then .ok (recognizer.descend, goals ++ .surface :: rest)
    else .error (recognizer.unexpected (some "nesting too deep"))
  | .surface => .ok (recognizer.ascend 1, rest)
  | .refuse reason => .error (recognizer.unexpected reason)

/-- The levels of nesting that an agenda would still close. -/
def openLevels (agenda : List Goal) : Nat :=
  agenda.count .surface

/-- Works off an agenda in at most the given number of moves. An error leaves the recognizer at the
token that did not fit. However the run ends, the levels it opened are closed. -/
def run : Nat → Recognizer → List Goal → Recognizer × Verdict Unit
  | _, recognizer, [] => (recognizer, .accepted ())
  | 0, recognizer, goal :: rest => (recognizer.ascend (openLevels (goal :: rest)), .stalled)
  | moves + 1, recognizer, goal :: rest =>
    match recognizer.step goal rest with
    | .ok (next, agenda) => run moves next agenda
    | .error error => (recognizer.ascend (openLevels rest), .rejected error)

/-- The moves granted for an agenda: a large share for every token ahead, for every goal, and for
every level of nesting. -/
def patience (recognizer : Recognizer) (agenda : List Goal) : Nat :=
  1024 * (nestingLimit + 1 + agenda.length + recognizer.after.length)

/-- Works off an agenda. -/
def recognize (recognizer : Recognizer) (agenda : List Goal) : Recognizer × Verdict Unit :=
  recognizer.run (recognizer.patience agenda) agenda

end Recognizer

end Decaf
