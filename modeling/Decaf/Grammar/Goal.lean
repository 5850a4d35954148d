import Decaf.Grammar.Tables

/-!
# Goals and moves

Recognition works off an agenda of goals. Each goal looks at the kind of the current token alone
and makes one move: it takes the token, gives way to other goals, opens or closes a level of
nesting, or finds that the token does not fit. `Tables.move` is the whole grammar of Decaf in this
form; only the goals that dispatch on a token consult the tables.
-/

namespace Decaf

/-- What is still to be recognized. `token` asks for a token of one kind, with the reason to give
when another stands there, and `anyToken` for whatever stands there. `surface` closes a level of
nesting. The other goals are rules and the parts of rules that depend on the current token. -/
inductive Goal where
  | token (kind : TokenKind) (reason : Option String)
  | anyToken
  | surface
  | rule (rule : Rule)
  | graded (rule : GradedRule) (power : Power)
  | declarationTail
  | parameters
  | moreParameters
  | variableTail
  | statementBody
  | statements
  | elseBranch
  | expressionUnless (stop : TokenKind)
  | moreArguments
  | operand
  | operators (power : Power)
  | typeHead
  | typeSuffixes (power : Power)
  | arraySize
deriving DecidableEq, Repr

/-- What a goal does at a token: take it, give way to other goals, give way to goals one level
deeper, close a level, or refuse the token for a reason. -/
inductive Move where
  | take
  | expand (goals : List Goal)
  | nest (goals : List Goal)
  | surface
  | refuse (reason : Option String)
deriving DecidableEq, Repr

namespace Goal

/-- A token of one kind, without a reason of its own. -/
def expect (kind : TokenKind) : Goal :=
  token kind none

/-- An expression up to the first token that continues none. -/
def expression : Goal :=
  graded .expression .lowest

/-- A type with all its suffixes. -/
def type : Goal :=
  graded .type .lowest

end Goal

/-- The goals of a plain rule. Only a declaration and a list of arguments look at the current token
before they start. -/
def Rule.move (kind : TokenKind) : Rule → Move
  | .declaration =>
    if kind.isTypeKeyword then
      .expand [.type, .token .identifier (some "expected identifier during declaration"),
        .declarationTail]
    else .refuse (some "expected a declaration")
  | .statement => .nest [.statementBody]
  | .variableStatement =>
    .expand [.type, .token .identifier (some "expected identifier during variable declaration"),
      .variableTail]
  | .block => .expand [.expect .openCurly, .statements, .expect .closeCurly]
  | .ifStatement =>
    .expand [.anyToken, .expect .openParen, .expression, .expect .closeParen, .rule .statement,
      .elseBranch]
  | .whileStatement =>
    .expand [.anyToken, .expect .openParen, .expression, .expect .closeParen, .rule .statement]
  | .forStatement =>
    .expand [.anyToken, .expect .openParen, .expressionUnless .semicolon, .expect .semicolon,
      .expressionUnless .semicolon, .expect .semicolon, .expressionUnless .closeParen,
      .expect .closeParen, .rule .statement]
  | .returnStatement => .expand [.anyToken, .expressionUnless .semicolon, .expect .semicolon]
  | .jumpStatement => .expand [.anyToken, .expect .semicolon]
  | .printStatement =>
    .expand [.anyToken, .expect .openParen, .rule .arguments, .expect .closeParen,
      .expect .semicolon]
  | .atom => .expand [.anyToken]
  | .signed => .expand [.anyToken, .graded .expression .unary]
  | .grouping => .expand [.expect .openParen, .expression, .expect .closeParen]
  | .arguments =>
    if kind = .closeParen then .expand [] else .expand [.expression, .moreArguments]
  | .keywordType => .expand [.anyToken]

/-- The goals of a graded rule. An expression opens a level of nesting. The operand to the right of
a binary operator is read at the operator's own power, so such operators group to the left; the
right side of an assignment may hold any operator. -/
def GradedRule.move (power : Power) : GradedRule → Move
  | .expression => .nest [.operand, .operators power]
  | .binary => .expand [.anyToken, .graded .expression power]
  | .assignment => .expand [.anyToken, .expression]
  | .call => .expand [.expect .openParen, .rule .arguments, .expect .closeParen]
  | .index => .expand [.expect .openBracket, .expression, .expect .closeBracket]
  | .member => .expand [.expect .dot, .expect .identifier]
  | .type => .expand [.typeHead, .typeSuffixes power]
  | .arrayType => .expand [.expect .openBracket, .arraySize, .expect .closeBracket]

namespace Tables

/-- The move for a table entry that starts a construct: its rule, or a refusal without one. -/
def enter (entry : Option Rule) (reason : String) : Move :=
  match entry with
  | some rule => .expand [.rule rule]
  | none => .refuse (some reason)

/-- The move in front of a token that may continue a construct read at `power`. A token that binds
no tighter ends the construct, and a kind without a power binds loosest of all. A token that binds
tighter must have a rule, which is read at the token's own power; then the same goal returns. -/
def continueAt (entry : Option GradedRule) (binding : Option Power) (power : Power)
    (again : Goal) : Move :=
  if binding.getD .lowest ≤ power then .expand []
  else
    match entry with
    | some rule => .expand [.graded rule (binding.getD .lowest), again]
    | none => .refuse none

/-- The move of a goal at a token of the given kind. -/
def move (tables : Tables) (kind : TokenKind) : Goal → Move
  | .token expected reason =>
    if kind = expected then .take
    else .refuse (some (reason.getD ("expected " ++ expected.label)))
  | .anyToken => .take
  | .surface => .surface
  | .rule rule => rule.move kind
  | .graded rule power => rule.move power
  | .declarationTail =>
    if kind = .openParen then
      .expand [.expect .openParen, .parameters, .expect .closeParen, .rule .block]
    else .expand [.expect .semicolon]
  | .parameters =>
    if kind = .closeParen then .expand []
    else .expand [.type, .expect .identifier, .moreParameters]
  | .moreParameters =>
    if kind = .comma then .expand [.anyToken, .type, .expect .identifier, .moreParameters]
    else .expand []
  | .variableTail =>
    if kind = .openParen then .refuse (some "functions can only be declared at the top level")
    else .expand [.expect .semicolon]
  | .statementBody =>
    match tables.statement kind with
    | some rule => .expand [.rule rule]
    | none => .expand [.expression, .expect .semicolon]
  | .statements =>
    if kind = .closeCurly then .expand [] else .expand [.rule .statement, .statements]
  | .elseBranch =>
    if kind = .elseWord then .expand [.anyToken, .rule .statement] else .expand []
  | .expressionUnless stop => if kind = stop then .expand [] else .expand [.expression]
  | .moreArguments =>
    if kind = .comma then .expand [.anyToken, .expression, .moreArguments] else .expand []
  | .operand => enter (tables.operand kind) "expected an expression"
  | .operators power =>
    continueAt (tables.operator kind) (tables.power kind) power (.operators power)
  | .typeHead => enter (tables.typeHead kind) "expected a type"
  | .typeSuffixes power =>
    continueAt (tables.typeSuffix kind) (tables.typePower kind) power (.typeSuffixes power)
  | .arraySize => if kind = .intLiteral then .expand [.anyToken] else .expand []

end Tables

end Decaf
