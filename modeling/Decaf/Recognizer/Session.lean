import Decaf.Recognizer.Run

/-!
# Recognition in steps

A session drives one recognizer by hand: it looks at tokens, takes them, changes the tables, nests
steps in each other, and runs single rules. Errors neither end a session nor move the recognizer
back. `Recognizer.perform` says what each step does and answers.
-/

namespace Decaf

/-- What the tables hold for one kind: its two powers, and which tables have a rule for it. -/
structure Entries where
  power : Option Power
  typePower : Option Power
  statement : Bool
  operand : Bool
  operator : Bool
  typeHead : Bool
  typeSuffix : Bool
deriving DecidableEq, Repr

/-- What the tables hold for a kind. -/
def Tables.entries (tables : Tables) (kind : TokenKind) : Entries where
  power := tables.power kind
  typePower := tables.typePower kind
  statement := (tables.statement kind).isSome
  operand := (tables.operand kind).isSome
  operator := (tables.operator kind).isSome
  typeHead := (tables.typeHead kind).isSome
  typeSuffix := (tables.typeSuffix kind).isSome

/-- A step of a session. An expectation may bring the error to answer when it fails. A nested step
is performed inside the given number of levels. -/
inductive Step where
  | look
  | advance
  | unexpected (reason : Option String)
  | expect (kind : TokenKind) (error : Option Diagnostic)
  | nested (levels : Nat) (inner : Step)
  | entries (kind : TokenKind)
  | register (registrations : List Registration)
  | rule (rule : Rule)
  | graded (rule : GradedRule) (power : Power)
deriving DecidableEq, Repr

/-- The answer to a step. A nested step answers what the inner step answered, if it was reached,
and the error that kept the recognizer from going deeper, if there was one. -/
inductive Answer where
  | done
  | state (recognizer : Recognizer)
  | token (token : Token)
  | error (error : Diagnostic)
  | expected (outcome : Except Diagnostic Token)
  | nested (inner : Option Answer) (error : Option Diagnostic)
  | entries (entries : Entries)
  | verdict (verdict : Verdict Unit)

namespace Recognizer

/-- Takes a token of one kind. Otherwise the recognizer stays, and the error is the given one or
else that the kind was expected. -/
def expect (recognizer : Recognizer) (kind : TokenKind) (error : Option Diagnostic) :
    Recognizer × Except Diagnostic Token :=
  if recognizer.kind = kind then (recognizer.advance, .ok recognizer.current)
  else (recognizer, .error (error.getD (recognizer.missing kind)))

/-- Runs an action some levels deeper and comes back up. The action is not run when the levels
would exceed the limit. -/
def nested {α : Type} (action : Recognizer → Recognizer × α) :
    Nat → Recognizer → Recognizer × Except Diagnostic α
  | 0, recognizer =>
    let outcome := action recognizer
    (outcome.1, .ok outcome.2)
  | levels + 1, recognizer =>
    if recognizer.depth < nestingLimit then
      let outcome := nested action levels recognizer.descend
      (outcome.1.ascend 1, outcome.2)
    else (recognizer, .error (recognizer.unexpected (some "nesting too deep")))

/-- Performs one step and answers it. -/
def perform : Step → Recognizer → Recognizer × Answer
  | .look, recognizer => (recognizer, .state recognizer)
  | .advance, recognizer => (recognizer.advance, .token recognizer.current)
  | .unexpected reason, recognizer => (recognizer, .error (recognizer.unexpected reason))
  | .expect kind error, recognizer =>
    let outcome := recognizer.expect kind error
    (outcome.1, .expected outcome.2)
  | .nested levels inner, recognizer =>
    match nested (perform inner) levels recognizer with
    | (next, .ok answer) => (next, .nested (some answer) none)
    | (next, .error error) => (next, .nested none (some error))
  | .entries kind, recognizer => (recognizer, .entries (recognizer.tables.entries kind))
  | .register registrations, recognizer => (recognizer.register registrations, .done)
  | .rule rule, recognizer =>
    let outcome := recognizer.recognize [.rule rule]
    (outcome.1, .verdict outcome.2)
  | .graded rule power, recognizer =>
    let outcome := recognizer.recognize [.graded rule power]
    (outcome.1, .verdict outcome.2)

/-- Performs steps one after the other. Each answer comes with the recognizer after its step. -/
def performAll (recognizer : Recognizer) : List Step → List (Answer × Recognizer)
  | [] => []
  | step :: rest =>
    let outcome := recognizer.perform step
    (outcome.2, outcome.1) :: outcome.1.performAll rest

end Recognizer

end Decaf
