import Decaf.Token.Spelling

/-!
# Segments of source text

A source text falls into segments: single blanks, comments, words, numbers, strings, symbols, and
the pieces that are no Decaf, namely unclosed comments, unclosed strings and illegal characters.
`cut` takes the first segment off a text and `segments` cuts a text to its end. No character is
lost: `cut_append` puts the first segment back in front of what is left, and `segments_flatten`
says that the texts of all segments joined are the source.
-/

namespace Decaf

/-- A blank separates tokens: a space, a tab, a line break, a vertical tab or a form feed. -/
def isBlank (c : Char) : Bool :=
  c = ' ' || c = '\t' || c = '\r' || c = '\n' || c = '\x0b' || c = '\x0c'

/-- Words start with an ASCII letter or an underscore. -/
def startsWord (c : Char) : Bool :=
  c.isAlpha || c = '_'

/-- Words go on with ASCII letters, digits and underscores. -/
def continuesWord (c : Char) : Bool :=
  c.isAlphanum || c = '_'

/-- What stays inside a string: everything but the closing quote and the end of the line. -/
def staysInString (c : Char) : Bool :=
  c ≠ '"' && c ≠ '\n'

/-- What stays inside a line comment: everything but the end of the line. -/
def staysInLine (c : Char) : Bool :=
  c ≠ '\n'

/-- A segment of source text. The bodies of comments and strings are kept without the characters
that open and close them. -/
inductive Segment where
  | blank (c : Char)
  | lineComment (body : List Char)
  | blockComment (body : List Char)
  | openComment (body : List Char)
  | word (letters : List Char)
  | number (digits : List Char)
  | string (body : List Char)
  | openString (body : List Char)
  | symbol (kind : TokenKind) (spelling : List Char)
  | illegal (c : Char)
deriving DecidableEq, Repr

/-- The source text of a segment. -/
def Segment.text : Segment → List Char
  | blank c => [c]
  | lineComment body => '/' :: '/' :: body
  | blockComment body => '/' :: '*' :: body ++ ['*', '/']
  | openComment body => '/' :: '*' :: body
  | word letters => letters
  | number digits => digits
  | string body => '"' :: body ++ ['"']
  | openString body => '"' :: body
  | symbol _ spelling => spelling
  | illegal c => [c]

/-- Splits a text at the first end of a block comment, which belongs to neither part. -/
def splitCommentEnd? : List Char → Option (List Char × List Char)
  | [] => none
  | c :: rest =>
    match c, rest with
    | '*', '/' :: after => some ([], after)
    | _, _ => (splitCommentEnd? rest).map fun parts ↦ (c :: parts.1, parts.2)

/-- The first segment of a text that starts with a slash, given what follows the slash. -/
def cutSlash : List Char → Segment × List Char
  | '/' :: rest => (.lineComment (rest.takeWhile staysInLine), rest.dropWhile staysInLine)
  | '*' :: rest =>
    match splitCommentEnd? rest with
    | some (body, after) => (.blockComment body, after)
    | none => (.openComment rest, [])
  | rest => (.symbol .slash ['/'], rest)

/-- The first segment of a text that starts with a quote, given what follows the quote. -/
def cutString (rest : List Char) : Segment × List Char :=
  match rest.dropWhile staysInString with
  | '"' :: after => (.string (rest.takeWhile staysInString), after)
  | after => (.openString (rest.takeWhile staysInString), after)

/-- The first segment of a text that starts with none of the longer forms: an operator, a
punctuation character, or a character that has no place in Decaf. -/
def cutSymbol (c : Char) (rest : List Char) : Segment × List Char :=
  match matchOperator? (c :: rest) with
  | some (kind, spelling) => (.symbol kind spelling, (c :: rest).drop spelling.length)
  | none =>
    match punctuationKind? c with
    | some kind => (.symbol kind [c], rest)
    | none => (.illegal c, rest)

/-- Takes the first segment off a text that starts with `c`, and returns it with what is left. -/
def cut (c : Char) (rest : List Char) : Segment × List Char :=
  if isBlank c then (.blank c, rest)
  else if startsWord c then
    (.word (c :: rest.takeWhile continuesWord), rest.dropWhile continuesWord)
  else if c.isDigit then (.number (c :: rest.takeWhile Char.isDigit), rest.dropWhile Char.isDigit)
  else if c = '"' then cutString rest
  else if c = '/' then cutSlash rest
  else cutSymbol c rest

/-- The two parts around the end of a comment are all of the text. -/
theorem split_comment_end_append {text body after : List Char}
    (h : splitCommentEnd? text = some (body, after)) : body ++ '*' :: '/' :: after = text := by
  induction text generalizing body with
  | nil => simp [splitCommentEnd?] at h
  | cons c rest ih =>
    unfold splitCommentEnd? at h
    split at h
    · obtain ⟨rfl, rfl⟩ := Prod.mk.inj (Option.some.inj h)
      rfl
    · obtain ⟨⟨inner, tail⟩, hparts, heq⟩ := Option.map_eq_some_iff.mp h
      obtain ⟨rfl, rfl⟩ := Prod.mk.inj heq
      exact congrArg (c :: ·) (ih hparts)

/-- Nothing is lost behind a slash. -/
theorem cut_slash_append (rest : List Char) :
    (cutSlash rest).1.text ++ (cutSlash rest).2 = '/' :: rest := by
  unfold cutSlash
  split
  · simp [Segment.text, List.takeWhile_append_dropWhile]
  · split
    · next h => simp [Segment.text, split_comment_end_append h]
    · simp [Segment.text]
  · simp [Segment.text]

/-- Nothing is lost behind a quote. -/
theorem cut_string_append (rest : List Char) :
    (cutString rest).1.text ++ (cutString rest).2 = '"' :: rest := by
  have h := List.takeWhile_append_dropWhile (p := staysInString) (l := rest)
  unfold cutString
  split
  · next heq => rw [heq] at h; simp [Segment.text, h]
  · simp [Segment.text, h]

/-- Nothing is lost by reading a symbol. -/
theorem cut_symbol_append (c : Char) (rest : List Char) :
    (cutSymbol c rest).1.text ++ (cutSymbol c rest).2 = c :: rest := by
  unfold cutSymbol
  split
  · next kind spelling h =>
    obtain ⟨-, -, after, heq⟩ := match_operator_sound h
    simp [Segment.text, heq]
  · split <;> rfl

/-- Nothing is lost by a cut: the segment put back in front of what is left gives the text. -/
theorem cut_append (c : Char) (rest : List Char) :
    (cut c rest).1.text ++ (cut c rest).2 = c :: rest := by
  unfold cut
  split
  · rfl
  split
  · simp [Segment.text, List.takeWhile_append_dropWhile]
  split
  · simp [Segment.text, List.takeWhile_append_dropWhile]
  split
  · next h => rw [h, cut_string_append]
  split
  · next h => rw [h, cut_slash_append]
  · exact cut_symbol_append c rest

/-- A segment is never empty. -/
theorem cut_text_ne_nil (c : Char) (rest : List Char) : (cut c rest).1.text ≠ [] := by
  unfold cut
  split
  · simp [Segment.text]
  split
  · simp [Segment.text]
  split
  · simp [Segment.text]
  split
  · unfold cutString; split <;> simp [Segment.text]
  split
  · unfold cutSlash; split <;> (try split) <;> simp [Segment.text]
  · unfold cutSymbol
    split
    · next h => exact (match_operator_sound h).1
    · split <;> simp [Segment.text]

/-- What a cut leaves is shorter than the text. -/
theorem cut_shorter (c : Char) (rest : List Char) :
    (cut c rest).2.length < (c :: rest).length := by
  have happend := congrArg List.length (cut_append c rest)
  have hpos := List.length_pos_iff.mpr (cut_text_ne_nil c rest)
  rw [List.length_append] at happend
  omega

/-- The segments of a text, in order. -/
def segments : List Char → List Segment
  | [] => []
  | c :: rest => (cut c rest).1 :: segments (cut c rest).2
termination_by text => text.length
decreasing_by exact cut_shorter c rest

/-- The segments of a text joined are the text. -/
theorem segments_flatten (text : List Char) :
    (segments text).flatMap Segment.text = text := by
  fun_induction segments text with
  | case1 => rfl
  | case2 c rest ih => rw [List.flatMap_cons, ih, cut_append]

end Decaf
