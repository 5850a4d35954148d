import Decaf.Token.Kind

/-!
# The sentences of Decaf

The grammar of Decaf as a list of productions, without any order of recognition, and the token
kinds that derive from it. `IsProgram n kinds` says that `kinds` are the kinds of a program with
`n` declarations. The binding powers of operators do not matter here: they group a sentence, but
they neither admit nor exclude one. `Derives.append` and `Derives.split` let a sequence of symbols
be derived part by part.
-/

namespace Decaf

/-- The kinds of phrase that a program is built from. -/
inductive Category where
  | declaration
  | parameters
  | moreParameters
  | type
  | suffixes
  | block
  | statements
  | statement
  | optionalExpression
  | arguments
  | moreArguments
  | expression
  | moreOperands
  | operand
  | postfixes
deriving DecidableEq, Repr

/-- One place on the right side of a production: a token or a phrase. -/
inductive Symbol where
  | token (kind : TokenKind)
  | phrase (category : Category)
deriving DecidableEq, Repr

/-- The keywords that name a type. -/
def typeKeywords : List TokenKind :=
  [.intType, .boolType, .stringType, .voidType]

/-- The operators between two operands. -/
def binaryOperators : List TokenKind :=
  [.assign, .or, .and, .equal, .notEqual, .less, .lessEqual, .greater, .greaterEqual, .leftShift,
    .rightShift, .plus, .minus, .star, .slash, .percent]

/-- The operators in front of an operand. -/
def signOperators : List TokenKind :=
  [.minus, .not]

/-- The tokens that are an operand on their own. -/
def atoms : List TokenKind :=
  [.intLiteral, .stringLiteral, .boolLiteral, .nullWord, .identifier]

/-- The productions of a category. -/
def productions : Category → List (List Symbol)
  | .declaration =>
    [[.phrase .type, .token .identifier, .token .semicolon],
      [.phrase .type, .token .identifier, .token .openParen, .phrase .parameters,
        .token .closeParen, .phrase .block]]
  | .parameters => [[], [.phrase .type, .token .identifier, .phrase .moreParameters]]
  | .moreParameters =>
    [[], [.token .comma, .phrase .type, .token .identifier, .phrase .moreParameters]]
  | .type => typeKeywords.map fun kind ↦ [.token kind, .phrase .suffixes]
  | .suffixes =>
    [[], [.token .openBracket, .token .closeBracket, .phrase .suffixes],
      [.token .openBracket, .token .intLiteral, .token .closeBracket, .phrase .suffixes]]
  | .block => [[.token .openCurly, .phrase .statements, .token .closeCurly]]
  | .statements => [[], [.phrase .statement, .phrase .statements]]
  | .statement =>
    [[.phrase .type, .token .identifier, .token .semicolon],
      [.phrase .block],
      [.token .ifWord, .token .openParen, .phrase .expression, .token .closeParen,
        .phrase .statement],
      [.token .ifWord, .token .openParen, .phrase .expression, .token .closeParen,
        .phrase .statement, .token .elseWord, .phrase .statement],
      [.token .whileWord, .token .openParen, .phrase .expression, .token .closeParen,
        .phrase .statement],
      [.token .forWord, .token .openParen, .phrase .optionalExpression, .token .semicolon,
        .phrase .optionalExpression, .token .semicolon, .phrase .optionalExpression,
        .token .closeParen, .phrase .statement],
      [.token .returnWord, .phrase .optionalExpression, .token .semicolon],
      [.token .breakWord, .token .semicolon],
      [.token .continueWord, .token .semicolon],
      [.token .printWord, .token .openParen, .phrase .arguments, .token .closeParen,
        .token .semicolon],
      [.phrase .expression, .token .semicolon]]
  | .optionalExpression => [[], [.phrase .expression]]
  | .arguments => [[], [.phrase .expression, .phrase .moreArguments]]
  | .moreArguments => [[], [.token .comma, .phrase .expression, .phrase .moreArguments]]
  | .expression => [[.phrase .operand, .phrase .moreOperands]]
  | .moreOperands =>
    [] :: binaryOperators.map fun kind ↦
      [.token kind, .phrase .operand, .phrase .moreOperands]
  | .operand =>
    [.token .openParen, .phrase .expression, .token .closeParen, .phrase .postfixes] ::
      (signOperators.map (fun kind ↦ [.token kind, .phrase .operand]) ++
        atoms.map fun kind ↦ [.token kind, .phrase .postfixes])
  | .postfixes =>
    [[], [.token .dot, .token .identifier, .phrase .postfixes],
      [.token .openParen, .phrase .arguments, .token .closeParen, .phrase .postfixes],
      [.token .openBracket, .phrase .expression, .token .closeBracket, .phrase .postfixes]]

/-- The kinds that derive from a sequence of symbols: a token stands for itself, and a phrase is
replaced by one of its productions, always the first phrase first. -/
inductive Derives : List Symbol → List TokenKind → Prop where
  | done : Derives [] []
  | token {kind : TokenKind} {rest : List Symbol} {kinds : List TokenKind} :
      Derives rest kinds → Derives (.token kind :: rest) (kind :: kinds)
  | phrase {category : Category} {symbols rest : List Symbol} {kinds : List TokenKind} :
      symbols ∈ productions category → Derives (symbols ++ rest) kinds →
        Derives (.phrase category :: rest) kinds

/-- Derivations of two sequences join to one of both. -/
theorem Derives.append {first second : List Symbol} {left right : List TokenKind}
    (hfirst : Derives first left) (hsecond : Derives second right) :
    Derives (first ++ second) (left ++ right) := by
  induction hfirst with
  | done => exact hsecond
  | token _ ih => exact .token ih
  | phrase hmem _ ih => exact .phrase hmem (by simpa using ih)

/-- What derives from two sequences joined splits into what derives from each. -/
theorem Derives.split {first second : List Symbol} {kinds : List TokenKind}
    (h : Derives (first ++ second) kinds) :
    ∃ left right, kinds = left ++ right ∧ Derives first left ∧ Derives second right := by
  generalize hall : first ++ second = symbols at h
  induction h generalizing first with
  | done =>
    obtain ⟨rfl, rfl⟩ := List.append_eq_nil_iff.mp hall
    exact ⟨[], [], rfl, .done, .done⟩
  | @token kind rest kinds hrest ih =>
    cases first with
    | nil =>
      obtain rfl : second = .token kind :: rest := hall
      exact ⟨[], kind :: kinds, rfl, .done, .token hrest⟩
    | cons symbol first =>
      obtain ⟨rfl, htail⟩ := List.cons.inj hall
      obtain ⟨left, right, rfl, hleft, hright⟩ := ih htail
      exact ⟨kind :: left, right, rfl, .token hleft, hright⟩
  | @phrase category expansion rest kinds hmem hrest ih =>
    cases first with
    | nil =>
      obtain rfl : second = .phrase category :: rest := hall
      exact ⟨[], kinds, rfl, .done, .phrase hmem hrest⟩
    | cons symbol first =>
      obtain ⟨rfl, rfl⟩ := List.cons.inj hall
      obtain ⟨left, right, rfl, hleft, hright⟩ := ih (List.append_assoc expansion first second)
      exact ⟨left, right, rfl, .phrase hmem hleft, hright⟩

/-- The kinds of a program with the given number of declarations. -/
def IsProgram (count : Nat) (kinds : List TokenKind) : Prop :=
  Derives (List.replicate count (.phrase .declaration)) kinds

/-- Two programs in a row are a program. -/
theorem IsProgram.append {first second : Nat} {left right : List TokenKind}
    (hleft : IsProgram first left) (hright : IsProgram second right) :
    IsProgram (first + second) (left ++ right) := by
  unfold IsProgram
  rw [← List.replicate_append_replicate]
  exact Derives.append hleft hright

end Decaf
