import Decaf.Token.Kind

/-!
# How tokens are spelled

The fixed spellings of Decaf: reserved words, operators of two characters and of one, and
punctuation. An operator is read as long as it can be: `matchOperator?` tries the first two
characters before the first alone.
-/

namespace Decaf

/-- The reserved words with their kinds. `true` and `false` are the two literals of one kind. -/
def reservedWords : List (String × TokenKind) :=
  [("Print", .printWord), ("bool", .boolType), ("break", .breakWord),
    ("continue", .continueWord), ("else", .elseWord), ("extern", .externWord),
    ("false", .boolLiteral), ("for", .forWord), ("func", .funcWord), ("if", .ifWord),
    ("int", .intType), ("null", .nullWord), ("package", .packageWord), ("return", .returnWord),
    ("string", .stringType), ("true", .boolLiteral), ("var", .varWord), ("void", .voidType),
    ("while", .whileWord)]

/-- The kind of a reserved word; every other word is an identifier. -/
def reservedKind? (word : String) : Option TokenKind :=
  reservedWords.lookup word

/-- The kind of an operator spelled with two characters. -/
def pairOperator? : Char → Char → Option TokenKind
  | '&', '&' => some .and
  | '|', '|' => some .or
  | '=', '=' => some .equal
  | '!', '=' => some .notEqual
  | '<', '=' => some .lessEqual
  | '>', '=' => some .greaterEqual
  | '<', '<' => some .leftShift
  | '>', '>' => some .rightShift
  | _, _ => none

/-- The kind of an operator spelled with one character. -/
def singleOperator? : Char → Option TokenKind
  | '=' => some .assign
  | '!' => some .not
  | '<' => some .less
  | '>' => some .greater
  | '+' => some .plus
  | '-' => some .minus
  | '*' => some .star
  | '/' => some .slash
  | '%' => some .percent
  | _ => none

/-- The kind of a punctuation character. -/
def punctuationKind? : Char → Option TokenKind
  | ',' => some .comma
  | '.' => some .dot
  | ';' => some .semicolon
  | '{' => some .openCurly
  | '}' => some .closeCurly
  | '(' => some .openParen
  | ')' => some .closeParen
  | '[' => some .openBracket
  | ']' => some .closeBracket
  | _ => none

/-- The longest operator at the head of a text, with its kind. -/
def matchOperator? : List Char → Option (TokenKind × List Char)
  | [] => none
  | [c] => (singleOperator? c).map fun kind ↦ (kind, [c])
  | c :: d :: _ =>
    match pairOperator? c d with
    | some kind => some (kind, [c, d])
    | none => (singleOperator? c).map fun kind ↦ (kind, [c])

/-- A reserved word is listed with its kind. -/
theorem mem_of_reserved_kind {word : String} {kind : TokenKind}
    (h : reservedKind? word = some kind) : (word, kind) ∈ reservedWords := by
  obtain ⟨before, after, heq, _⟩ := List.lookup_eq_some_iff.mp h
  rw [heq]
  simp

/-- Each spelling of two characters is the symbol of its kind. -/
theorem symbol_of_pair_operator {c d : Char} {kind : TokenKind}
    (h : pairOperator? c d = some kind) : kind.symbol? = some (String.ofList [c, d]) := by
  unfold pairOperator? at h
  split at h <;> simp_all <;> subst h <;> rfl

/-- Each operator of one character is the symbol of its kind. -/
theorem symbol_of_single_operator {c : Char} {kind : TokenKind}
    (h : singleOperator? c = some kind) : kind.symbol? = some (String.ofList [c]) := by
  unfold singleOperator? at h
  split at h <;> simp_all <;> subst h <;> rfl

/-- Each punctuation character is the symbol of its kind. -/
theorem symbol_of_punctuation {c : Char} {kind : TokenKind}
    (h : punctuationKind? c = some kind) : kind.symbol? = some (String.ofList [c]) := by
  unfold punctuationKind? at h
  split at h <;> simp_all <;> subst h <;> rfl

/-- The spelling that `matchOperator?` finds is not empty, is the symbol of its kind, and heads the
text. -/
theorem match_operator_sound {text : List Char} {kind : TokenKind} {spelling : List Char}
    (h : matchOperator? text = some (kind, spelling)) :
    spelling ≠ [] ∧ kind.symbol? = some (String.ofList spelling) ∧
      ∃ rest, text = spelling ++ rest := by
  unfold matchOperator? at h
  split at h
  · simp at h
  · next c =>
    obtain ⟨found, hc, heq⟩ := Option.map_eq_some_iff.mp h
    obtain ⟨rfl, rfl⟩ := Prod.mk.inj heq
    exact ⟨by simp, symbol_of_single_operator hc, [], rfl⟩
  · next c d rest =>
    split at h
    · next found hcd =>
      obtain ⟨rfl, rfl⟩ := Prod.mk.inj (Option.some.inj h)
      exact ⟨by simp, symbol_of_pair_operator hcd, rest, rfl⟩
    · obtain ⟨found, hc, heq⟩ := Option.map_eq_some_iff.mp h
      obtain ⟨rfl, rfl⟩ := Prod.mk.inj heq
      exact ⟨by simp, symbol_of_single_operator hc, d :: rest, rfl⟩

end Decaf
