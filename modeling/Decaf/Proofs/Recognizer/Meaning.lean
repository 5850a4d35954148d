import Decaf.Grammar.Goal
import Decaf.Proofs.Grammar.Expressions
import Decaf.Proofs.Grammar.Standard

/-!
# What an agenda stands for

Every goal stands for a language, and an agenda for the product of those of its goals, in front of
what lies beyond it. A goal that takes whatever token stands there stands for every kind; it is only
met in front of the right one. An operator goal of any power below `unary` stands for all
continuations, although it stops in front of some: what it leaves is taken up by an operator goal
further down the agenda. `Goal.Fits` lists what a goal asks of what follows it, so that looking at
one token is enough to decide its move, and an agenda is `Orderly` when all its goals fit.
-/

namespace Decaf

/-- The language of one token of any kind. -/
def anyKind : Language TokenKind :=
  oneOf TokenKind.all

/-- The language of a phrase that may be left out. -/
def optional (symbols : List Symbol) : Language TokenKind :=
  1 + words symbols

/-- What a rule stands for. -/
def Rule.language : Rule → Language TokenKind
  | .declaration => words [.phrase .declaration]
  | .statement => words [.phrase .statement]
  | .variableStatement =>
    words [.phrase .type, .token .identifier, .token .semicolon]
  | .block => words [.phrase .block]
  | .ifStatement =>
    anyKind *
      (words
          [.token .openParen, .phrase .expression, .token .closeParen, .phrase .statement] *
        optional [.token .elseWord, .phrase .statement])
  | .whileStatement =>
    anyKind *
      words [.token .openParen, .phrase .expression, .token .closeParen, .phrase .statement]
  | .forStatement =>
    anyKind *
      words
        [.token .openParen, .phrase .optionalExpression, .token .semicolon,
          .phrase .optionalExpression, .token .semicolon, .phrase .optionalExpression,
          .token .closeParen, .phrase .statement]
  | .returnStatement => anyKind * words [.phrase .optionalExpression, .token .semicolon]
  | .jumpStatement => anyKind * words [.token .semicolon]
  | .printStatement =>
    anyKind *
      words
        [.token .openParen, .phrase .arguments, .token .closeParen, .token .semicolon]
  | .atom => anyKind
  | .signed => anyKind * words [.phrase .operand]
  | .grouping => words [.token .openParen, .phrase .expression, .token .closeParen]
  | .arguments => words [.phrase .arguments]
  | .keywordType => anyKind

/-- What an expression read at a power stands for: at `unary` and above it is a mere operand. -/
def expressionLanguage (power : Power) : Language TokenKind :=
  if .unary ≤ power then words [.phrase .operand] else words [.phrase .expression]

/-- What the operators behind an operand stand for: at `unary` and above there are only suffixes. -/
def operatorsLanguage (power : Power) : Language TokenKind :=
  if .unary ≤ power then words [.phrase .postfixes] else continuations

/-- What a graded rule stands for. -/
def GradedRule.language (power : Power) : GradedRule → Language TokenKind
  | .expression => expressionLanguage power
  | .binary => anyKind * expressionLanguage power
  | .assignment => anyKind * words [.phrase .expression]
  | .call => words [.token .openParen, .phrase .arguments, .token .closeParen]
  | .index => words [.token .openBracket, .phrase .expression, .token .closeBracket]
  | .member => words [.token .dot, .token .identifier]
  | .type => words [.phrase .type]
  | .arrayType =>
    words [.token .openBracket] *
      (optional [.token .intLiteral] * words [.token .closeBracket])

/-- What a goal stands for. -/
def Goal.language : Goal → Language TokenKind
  | .token kind _ => words [.token kind]
  | .anyToken => anyKind
  | .surface => 1
  | .rule plain => plain.language
  | .graded plain power => plain.language power
  | .declarationTail =>
    words [.token .semicolon] +
      words
        [.token .openParen, .phrase .parameters, .token .closeParen, .phrase .block]
  | .parameters => words [.phrase .parameters]
  | .moreParameters => words [.phrase .moreParameters]
  | .variableTail => words [.token .semicolon]
  | .statementBody => words [.phrase .statement]
  | .statements => words [.phrase .statements]
  | .elseBranch => optional [.token .elseWord, .phrase .statement]
  | .expressionUnless _ => words [.phrase .optionalExpression]
  | .moreArguments => words [.phrase .moreArguments]
  | .operand => words [.phrase .operand]
  | .operators power => operatorsLanguage power
  | .typeHead => oneOf typeKeywords
  | .typeSuffixes _ => words [.phrase .suffixes]
  | .arraySize => optional [.token .intLiteral]

/-- What an agenda stands for, with what lies beyond it. -/
def agendaLanguage (agenda : List Goal) (beyond : Language TokenKind) : Language TokenKind :=
  agenda.foldr (fun goal rest ↦ goal.language * rest) beyond

/-- An empty agenda leaves what lies beyond. -/
@[simp] theorem agenda_language_nil (beyond : Language TokenKind) :
    agendaLanguage [] beyond = beyond :=
  rfl

/-- The first goal stands in front of the rest. -/
theorem agenda_language_cons (goal : Goal) (rest : List Goal) (beyond : Language TokenKind) :
    agendaLanguage (goal :: rest) beyond = goal.language * agendaLanguage rest beyond :=
  rfl

/-- The first part of an agenda stands in front of the second. -/
theorem agenda_language_append (first second : List Goal) (beyond : Language TokenKind) :
    agendaLanguage (first ++ second) beyond = agendaLanguage first (agendaLanguage second beyond) :=
  List.foldr_append

/-! ## What a goal asks of what follows -/

/-- All words of a language start with one of the given kinds. -/
def LedBy (kinds : List TokenKind) (language : Language TokenKind) : Prop :=
  ∀ ⦃kind word⦄, kind :: word ∈ language → kind ∈ kinds

/-- An `else` that may follow belongs to a statement still open. -/
def ElseBinds (language : Language TokenKind) : Prop :=
  ∀ ⦃word⦄, .elseWord :: word ∈ language →
    .elseWord :: word ∈ words [.token .elseWord, .phrase .statement] * language

/-- A kind with a power that may follow is an operator still to be read, and behind it and its
operand the same may follow again. No kind that only starts operands may follow. -/
def Resumes (language : Language TokenKind) : Prop :=
  ∀ ⦃kind word power⦄, kind :: word ∈ language → operatorPower? kind = some power →
    ¬ power ≤ .lowest →
      ∃ rule, operatorRule? kind = some rule ∧ kind :: word ∈ rule.language power * language

/-- What may follow an expression that is read at a power: where it leaves operators behind, the
rest takes up all continuations. -/
structure Closes (power : Power) (language : Language TokenKind) : Prop where
  le_unary : power ≤ .unary
  resumes : Resumes language
  absorbs : ¬ power ≤ .lowest → ¬ .unary ≤ power → continuations * language ≤ language

/-- What may follow a type that is read at a power: nothing but the name it belongs to. -/
structure ClosesType (power : Power) (language : Language TokenKind) : Prop where
  eq_lowest : power = .lowest
  led_by : LedBy [.identifier] language

/-- The tokens behind a whole expression. -/
def expressionEnds : List TokenKind :=
  [.semicolon, .closeParen, .closeBracket, .comma]

/-- What a rule asks of what follows. -/
def Rule.Fits (beyond : Language TokenKind) : Rule → Prop
  | .statement | .ifStatement | .whileStatement | .forStatement => ElseBinds beyond
  | .arguments => LedBy [.closeParen] beyond
  | .signed => Resumes beyond
  | .declaration | .variableStatement | .block | .returnStatement | .jumpStatement
  | .printStatement | .atom | .grouping | .keywordType => True

/-- What a graded rule asks of what follows. -/
def GradedRule.Fits (power : Power) (beyond : Language TokenKind) : GradedRule → Prop
  | .expression | .binary => Closes power beyond
  | .assignment => Resumes beyond
  | .type => ClosesType power beyond
  | .call | .index | .member | .arrayType => True

/-- What a goal asks of what follows. -/
def Goal.Fits (beyond : Language TokenKind) : Goal → Prop
  | .rule plain => plain.Fits beyond
  | .graded plain power => plain.Fits power beyond
  | .parameters | .moreParameters | .moreArguments => LedBy [.closeParen] beyond
  | .statementBody | .elseBranch => ElseBinds beyond
  | .statements => LedBy [.closeCurly] beyond
  | .expressionUnless stop => stop ∈ expressionEnds ∧ LedBy [stop] beyond
  | .operand => words [.phrase .postfixes] * beyond ≤ beyond ∧ Resumes beyond
  | .operators power => Closes power beyond
  | .typeSuffixes power => ClosesType power beyond
  | .arraySize => LedBy [.closeBracket] beyond
  | .token _ _ | .anyToken | .surface | .declarationTail | .variableTail | .typeHead => True

/-- An agenda whose goals all fit in front of what follows them. -/
def Orderly : List Goal → Language TokenKind → Prop
  | [], _ => True
  | goal :: rest, beyond => goal.Fits (agendaLanguage rest beyond) ∧ Orderly rest beyond

/-- Two agendas in a row are orderly when each is, the first in front of the second. -/
theorem Orderly.append {first second : List Goal} {beyond : Language TokenKind}
    (hfirst : Orderly first (agendaLanguage second beyond)) (hsecond : Orderly second beyond) :
    Orderly (first ++ second) beyond := by
  induction first with
  | nil => exact hsecond
  | cons goal first ih =>
      refine ⟨?_, ih hfirst.2⟩
      have hfits := hfirst.1
      rw [← agenda_language_append] at hfits
      exact hfits

/-! ## Every agenda can be completed -/

/-- A short word of a category. -/
def Category.sample : Category → List TokenKind
  | .declaration => [.intType, .identifier, .semicolon]
  | .type => [.intType]
  | .block => [.openCurly, .closeCurly]
  | .statement => [.breakWord, .semicolon]
  | .expression | .operand => [.identifier]
  | .parameters | .moreParameters | .suffixes | .statements | .optionalExpression | .arguments
  | .moreArguments | .moreOperands | .postfixes => []

/-- The empty word derives from an erasable category at once. -/
theorem nil_mem_productions {category : Category} (h : category.isErasable = true) :
    [] ∈ productions category := by
  revert h
  cases category <;> decide

/-- The empty word is a word of an erasable category. -/
theorem nil_mem_phrase {category : Category} (h : category.isErasable = true) :
    [] ∈ words [.phrase category] :=
  mem_words_phrase.mpr ⟨[], nil_mem_productions h, Derives.done⟩

/-- The sample of a category derives from it. -/
theorem sample_mem (category : Category) : category.sample ∈ words [.phrase category] := by
  have htype : Derives [.phrase .type] [.intType] :=
    mem_words_phrase.mpr
      ⟨[.token .intType, .phrase .suffixes], by decide, .token (nil_mem_phrase rfl)⟩
  have hoperand : Derives [.phrase .operand] [.identifier] :=
    mem_words_phrase.mpr
      ⟨[.token .identifier, .phrase .postfixes], by decide, .token (nil_mem_phrase rfl)⟩
  cases category with
  | declaration =>
      exact mem_words_phrase.mpr
        ⟨[.phrase .type, .token .identifier, .token .semicolon], by decide,
          htype.append (.token (.token .done))⟩
  | type => exact htype
  | block =>
      exact mem_words_phrase.mpr
        ⟨[.token .openCurly, .phrase .statements, .token .closeCurly], by decide,
          .token (Derives.append (nil_mem_phrase rfl) (.token .done))⟩
  | statement =>
      exact mem_words_phrase.mpr
        ⟨[.token .breakWord, .token .semicolon], by decide, .token (.token .done)⟩
  | expression =>
      exact mem_words_phrase.mpr
        ⟨[.phrase .operand, .phrase .moreOperands], by decide,
          hoperand.append (nil_mem_phrase rfl)⟩
  | operand => exact hoperand
  | _ => exact nil_mem_phrase rfl

/-- Products of inhabited languages are inhabited. -/
theorem mul_nonempty {first second : Language TokenKind} (hfirst : ∃ word, word ∈ first)
    (hsecond : ∃ word, word ∈ second) : ∃ word, word ∈ first * second := by
  obtain ⟨left, hleft⟩ := hfirst
  obtain ⟨right, hright⟩ := hsecond
  exact ⟨left ++ right, Language.append_mem_mul hleft hright⟩

/-- Some word derives from every sequence of symbols. -/
theorem words_nonempty (symbols : List Symbol) : ∃ word, word ∈ words symbols := by
  induction symbols with
  | nil => exact ⟨[], Derives.done⟩
  | cons symbol rest ih =>
      rw [words_cons]
      refine mul_nonempty ?_ ih
      cases symbol with
      | token kind => exact ⟨[kind], .token .done⟩
      | phrase category => exact ⟨category.sample, sample_mem category⟩

/-- What may be left out is inhabited. -/
theorem optional_nonempty (symbols : List Symbol) : ∃ word, word ∈ optional symbols :=
  ⟨[], Or.inl Language.nil_mem_one⟩

/-- Any one kind is a word. -/
theorem any_kind_nonempty : ∃ word, word ∈ anyKind :=
  ⟨[.identifier], .identifier, TokenKind.mem_all _, rfl⟩

/-- An expression can be read at every power. -/
theorem expression_language_nonempty (power : Power) : ∃ word, word ∈ expressionLanguage power := by
  unfold expressionLanguage
  split <;> exact words_nonempty _

/-- Some word fulfils every goal. -/
theorem Goal.language_nonempty (goal : Goal) : ∃ word, word ∈ goal.language := by
  cases goal with
  | rule plain =>
      cases plain with
      | ifStatement =>
          exact mul_nonempty any_kind_nonempty
            (mul_nonempty (words_nonempty _) (optional_nonempty _))
      | whileStatement | forStatement | returnStatement | jumpStatement | printStatement
      | signed => exact mul_nonempty any_kind_nonempty (words_nonempty _)
      | atom | keywordType => exact any_kind_nonempty
      | _ => exact words_nonempty _
  | graded plain power =>
      cases plain with
      | expression => exact expression_language_nonempty power
      | binary => exact mul_nonempty any_kind_nonempty (expression_language_nonempty power)
      | assignment => exact mul_nonempty any_kind_nonempty (words_nonempty _)
      | arrayType =>
          exact mul_nonempty (words_nonempty _) (mul_nonempty (optional_nonempty _)
            (words_nonempty _))
      | _ => exact words_nonempty _
  | anyToken => exact any_kind_nonempty
  | surface => exact ⟨[], Language.nil_mem_one⟩
  | declarationTail =>
      obtain ⟨word, hword⟩ := words_nonempty [.token .semicolon]
      exact ⟨word, Or.inl hword⟩
  | operators power =>
      simp only [Goal.language, operatorsLanguage]
      split <;> exact words_nonempty _
  | typeHead => exact ⟨[.intType], .intType, by decide, rfl⟩
  | elseBranch | arraySize => exact optional_nonempty _
  | _ => exact words_nonempty _

/-- Whatever is left to do can be done, if what lies beyond can. -/
theorem agenda_language_nonempty {beyond : Language TokenKind} (agenda : List Goal)
    (h : ∃ word, word ∈ beyond) : ∃ word, word ∈ agendaLanguage agenda beyond := by
  induction agenda with
  | nil => exact h
  | cons goal rest ih => exact mul_nonempty goal.language_nonempty ih

end Decaf
