import Decaf.Proofs.Scanner.Division
import Mathlib.Data.List.TakeWhile

/-!
# Patterns in order

The longer forms of segments are the matches of eight patterns, tried one after the other. A pattern
is a row of single characters and of runs. A greedy run first tries to go on as long as it can, any
other run first tries to stop; `splits` lists the ways in which a row can be split off a text in the
order in which they are tried, and the first of them is the match. `cutInOrder` takes the match of
the first pattern that has one, and leaves everything else to the symbols. `cut` instead decides by
the first character, and only among comments and among strings by what follows; `cut_eq_in_order`
says that the two are equal.
-/

namespace Decaf

/-- Only one character fits. -/
def exactly (fit c : Char) : Bool :=
  c = fit

/-- A part of a pattern: one character of some kind, or a run of such characters, which goes on as
long as it can if it is greedy. -/
inductive PatternPart where
  | one (fits : Char → Bool)
  | run (greedy : Bool) (fits : Char → Bool)

/-- The ways in which a run and then what follows it in a pattern can be split off a text, in the
order in which they are tried. -/
def runSplits (greedy : Bool) (fits : Char → Bool)
    (next : List Char → List (List Char × List Char)) : List Char → List (List Char × List Char)
  | [] => next []
  | c :: rest =>
    let longer :=
      if fits c then (runSplits greedy fits next rest).map fun split ↦ (c :: split.1, split.2)
      else []
    if greedy then longer ++ next (c :: rest) else next (c :: rest) ++ longer

/-- The ways in which a pattern can be split off a text, in the order in which they are tried. -/
def splits : List PatternPart → List Char → List (List Char × List Char)
  | [], text => [([], text)]
  | .one _ :: _, [] => []
  | .one fits :: parts, c :: rest =>
    if fits c then (splits parts rest).map fun split ↦ (c :: split.1, split.2) else []
  | .run greedy fits :: parts, text => runSplits greedy fits (splits parts) text

/-- The match of a pattern at the head of a text, with what is left: the first split. -/
def firstSplit? (parts : List PatternPart) (text : List Char) : Option (List Char × List Char) :=
  (splits parts text).head?

/-- A pattern with what it makes of the text that it matches. -/
structure Pattern where
  parts : List PatternPart
  segment : List Char → Segment

/-- What a pattern takes off a text, with what is left. -/
def Pattern.match? (pattern : Pattern) (text : List Char) : Option (Segment × List Char) :=
  (firstSplit? pattern.parts text).map fun split ↦ (pattern.segment split.1, split.2)

/-- The patterns of the longer forms, in the order in which they are tried. -/
def patterns : List Pattern :=
  [⟨[.one isBlank], fun text ↦ .blank (text.headD ' ')⟩,
    ⟨[.one (exactly '/'), .one (exactly '/'), .run true staysInLine],
      fun text ↦ .lineComment (text.drop 2)⟩,
    ⟨[.one (exactly '/'), .one (exactly '*'), .run false fun _ ↦ true, .one (exactly '*'),
        .one (exactly '/')],
      fun text ↦ .blockComment ((text.drop 2).take (text.length - 4))⟩,
    ⟨[.one (exactly '/'), .one (exactly '*'), .run true fun _ ↦ true],
      fun text ↦ .openComment (text.drop 2)⟩,
    ⟨[.one startsWord, .run true continuesWord], .word⟩,
    ⟨[.one Char.isDigit, .run true Char.isDigit], .number⟩,
    ⟨[.one (exactly '"'), .run true staysInString, .one (exactly '"')],
      fun text ↦ .string ((text.drop 1).take (text.length - 2))⟩,
    ⟨[.one (exactly '"'), .run true staysInString], fun text ↦ .openString (text.drop 1)⟩]

/-- What the first of some patterns to match takes off a text. -/
def firstMatch? (candidates : List Pattern) (text : List Char) : Option (Segment × List Char) :=
  candidates.findSome? fun pattern ↦ pattern.match? text

/-- The first segment of a text that starts with `c`: what the first pattern to match takes off it,
or else a symbol or a character that has no place in Decaf. -/
def cutInOrder (c : Char) (rest : List Char) : Segment × List Char :=
  (firstMatch? patterns (c :: rest)).getD (cutSymbol c rest)

/-! ## Parts of patterns -/

/-- The character that fits. -/
theorem exactly_self (c : Char) : exactly c c = true :=
  decide_eq_true rfl

/-- Any other character does not fit. -/
theorem exactly_of_ne {fit c : Char} (h : c ≠ fit) : exactly fit c = false :=
  decide_eq_false h

section

variable {fits : Char → Bool} {parts : List PatternPart}

/-- A character that fits is matched, and then the rest of the pattern. -/
theorem first_split_one {c : Char} {rest : List Char} (h : fits c = true) :
    firstSplit? (.one fits :: parts) (c :: rest) =
      (firstSplit? parts rest).map fun split ↦ (c :: split.1, split.2) := by
  rw [firstSplit?, splits, if_pos h, List.head?_map, firstSplit?]

/-- A pattern does not match where its first character does not fit, or there is none. -/
theorem first_split_one_none {text : List Char} (h : ∀ c ∈ text.head?, fits c = false) :
    firstSplit? (.one fits :: parts) text = none := by
  cases text with
  | nil => rfl
  | cons c rest => simp [firstSplit?, splits, h c rfl]

end

/-- A pattern that opens with two characters is matched behind them. -/
theorem first_split_two (first second : Char) (parts : List PatternPart) (rest : List Char) :
    firstSplit? (.one (exactly first) :: .one (exactly second) :: parts) (first :: second :: rest) =
      (firstSplit? parts rest).map fun split ↦ (first :: second :: split.1, split.2) := by
  rw [first_split_one (exactly_self first), first_split_one (exactly_self second), Option.map_map]
  rfl

/-- A pattern that opens with two characters does not match where the second is another one. -/
theorem first_split_two_none {first second : Char} {parts : List PatternPart} {rest : List Char}
    (h : ∀ c ∈ rest.head?, c ≠ second) :
    firstSplit? (.one (exactly first) :: .one (exactly second) :: parts) (first :: rest) =
      none := by
  rw [first_split_one (exactly_self first),
    first_split_one_none fun c hc ↦ exactly_of_ne (h c hc)]
  rfl

/-- A greedy run at the end of a pattern goes on as long as it can. -/
theorem first_split_run (fits : Char → Bool) (text : List Char) :
    firstSplit? [.run true fits] text = some (text.takeWhile fits, text.dropWhile fits) := by
  rw [firstSplit?, splits]
  induction text with
  | nil => rfl
  | cons c rest ih =>
      cases hc : fits c with
      | false => simp [runSplits, splits, hc]
      | true => simp [runSplits, hc, ih]

/-- A character and those that go on from it are taken by their pattern. -/
theorem first_split_one_run {first fits : Char → Bool} {c : Char} (rest : List Char)
    (h : first c = true) :
    firstSplit? [.one first, .run true fits] (c :: rest) =
      some (c :: rest.takeWhile fits, rest.dropWhile fits) := by
  rw [first_split_one h, first_split_run]
  rfl

/-- A greedy run of what stays in a string is followed by a quote only where it has to stop. -/
theorem first_split_quote (text : List Char) :
    firstSplit? [.run true staysInString, .one (exactly '"')] text =
      match text.dropWhile staysInString with
      | '"' :: after => some (text.takeWhile staysInString ++ ['"'], after)
      | _ => none := by
  rw [firstSplit?, splits]
  induction text with
  | nil => rfl
  | cons c rest ih =>
      cases hc : staysInString c with
      | true =>
          have hquote : exactly '"' c = false := by
            refine exactly_of_ne ?_
            rintro rfl
            cases hc
          -- A run that stops here has no quote behind it.
          have hstop : splits [.one (exactly '"')] (c :: rest) = [] := by simp [splits, hquote]
          simp only [runSplits, hc, if_true, hstop, List.append_nil, List.head?_map, ih,
            List.takeWhile_cons, List.dropWhile_cons]
          split <;> simp
      | false =>
          simp only [runSplits, hc, splits, List.takeWhile_cons, List.dropWhile_cons]
          by_cases hquote : c = '"' <;> simp [exactly, hquote]

/-- A run of any characters that stops as soon as it can stops at the first end of a comment. -/
theorem first_split_comment_end (text : List Char) :
    firstSplit? [.run false fun _ ↦ true, .one (exactly '*'), .one (exactly '/')] text =
      (splitCommentEnd? text).map fun parts ↦ (parts.1 ++ ['*', '/'], parts.2) := by
  rw [firstSplit?, splits]
  fun_induction splitCommentEnd? text with
  | case1 => rfl
  | case2 after => simp [runSplits, splits, exactly_self]
  | case3 c rest hopen ih =>
      have hstop : splits [.one (exactly '*'), .one (exactly '/')] (c :: rest) = [] := by
        cases rest with
        | nil => simp [splits]
        | cons d after =>
            have hslash (hstar : c = '*') : d ≠ '/' := by
              rintro rfl
              exact hopen after hstar rfl
            simpa [splits, exactly] using hslash
      simp [runSplits, hstop, ih, Function.comp_def]

/-! ## The first pattern to match -/

section

variable {parts : List PatternPart} {segment : List Char → Segment} {others : List Pattern}

/-- The first pattern decides if it matches. -/
theorem first_match_of_split {text front back : List Char}
    (h : firstSplit? parts text = some (front, back)) :
    firstMatch? (⟨parts, segment⟩ :: others) text = some (segment front, back) := by
  have hmatch : Pattern.match? ⟨parts, segment⟩ text = some (segment front, back) := by
    rw [Pattern.match?, h]
    rfl
  rw [firstMatch?, List.findSome?_cons, hmatch]

/-- A pattern that does not match is passed over. -/
theorem first_match_of_none {text : List Char} (h : firstSplit? parts text = none) :
    firstMatch? (⟨parts, segment⟩ :: others) text = firstMatch? others text := by
  have hmatch : Pattern.match? ⟨parts, segment⟩ text = none := by
    rw [Pattern.match?, h]
    rfl
  rw [firstMatch?, List.findSome?_cons, hmatch, firstMatch?]

/-- A pattern whose first character does not fit is passed over. -/
theorem first_match_pass {fits : Char → Bool} {c : Char} {rest : List Char} (h : fits c = false) :
    firstMatch? (⟨.one fits :: parts, segment⟩ :: others) (c :: rest) =
      firstMatch? others (c :: rest) := by
  refine first_match_of_none (first_split_one_none fun d hd ↦ ?_)
  cases hd
  exact h

end

section

variable {c : Char} (rest : List Char)

/-- A blank is taken by the first pattern. -/
theorem cut_in_order_blank (h : isBlank c = true) : cutInOrder c rest = (.blank c, rest) := by
  have hsplit : firstSplit? [.one isBlank] (c :: rest) = some ([c], rest) := by
    rw [first_split_one h]
    rfl
  rw [cutInOrder, patterns, first_match_of_split hsplit]
  rfl

/-- No word and no number starts with a slash. -/
theorem exactly_slash_eq_false (h : startsWord c = true ∨ c.isDigit = true) :
    exactly '/' c = false := by
  refine exactly_of_ne ?_
  rintro rfl
  rcases h with hword | hdigit
  · cases hword
  · cases hdigit

/-- The patterns of the blanks and of the comments are passed over where nothing of theirs starts. -/
theorem first_match_behind_comments (hblank : isBlank c = false) (hslash : exactly '/' c = false) :
    firstMatch? patterns (c :: rest) = firstMatch? (patterns.drop 4) (c :: rest) := by
  rw [patterns, first_match_pass hblank, first_match_pass hslash, first_match_pass hslash,
    first_match_pass hslash]
  rfl

/-- A word is taken behind the comments. -/
theorem cut_in_order_word (h : startsWord c = true) :
    cutInOrder c rest =
      (.word (c :: rest.takeWhile continuesWord), rest.dropWhile continuesWord) := by
  have hmatch : firstMatch? (patterns.drop 4) (c :: rest) =
      some (.word (c :: rest.takeWhile continuesWord), rest.dropWhile continuesWord) :=
    first_match_of_split (first_split_one_run rest h)
  rw [cutInOrder, first_match_behind_comments rest (not_blank (Or.inl h))
    (exactly_slash_eq_false (Or.inl h)), hmatch]
  rfl

/-- A number is taken behind the words. -/
theorem cut_in_order_number (h : c.isDigit = true) :
    cutInOrder c rest =
      (.number (c :: rest.takeWhile Char.isDigit), rest.dropWhile Char.isDigit) := by
  have hword : firstMatch? (patterns.drop 4) (c :: rest) =
      firstMatch? (patterns.drop 5) (c :: rest) :=
    first_match_pass (not_starts_word_of_digit h)
  have hmatch : firstMatch? (patterns.drop 5) (c :: rest) =
      some (.number (c :: rest.takeWhile Char.isDigit), rest.dropWhile Char.isDigit) :=
    first_match_of_split (first_split_one_run rest h)
  rw [cutInOrder, first_match_behind_comments rest (not_blank (Or.inr h))
    (exactly_slash_eq_false (Or.inr h)), hword, hmatch]
  rfl

/-- Behind the comments, the patterns of the words and of the numbers are passed over as well where
neither starts. -/
theorem first_match_behind_numbers (hblank : isBlank c = false) (hslash : exactly '/' c = false)
    (hword : startsWord c = false) (hdigit : c.isDigit = false) :
    firstMatch? patterns (c :: rest) = firstMatch? (patterns.drop 6) (c :: rest) := by
  rw [first_match_behind_comments rest hblank hslash]
  exact (first_match_pass hword).trans (first_match_pass hdigit)

/-- A string is tried as a closed one before it is taken as an open one. -/
theorem cut_in_order_string : cutInOrder '"' rest = cutString rest := by
  have hclosed : firstSplit? [.one (exactly '"'), .run true staysInString, .one (exactly '"')]
      ('"' :: rest) = _ := first_split_one (exactly_self '"')
  rw [first_split_quote] at hclosed
  rw [cutInOrder, first_match_behind_numbers rest rfl rfl rfl rfl]
  unfold cutString
  split
  · next after hdrop =>
    rw [hdrop] at hclosed
    have hmatch : firstMatch? (patterns.drop 6) ('"' :: rest) = some _ :=
      first_match_of_split hclosed
    rw [hmatch]
    simp
  · next hother =>
    have hnone : firstMatch? (patterns.drop 6) ('"' :: rest) =
        firstMatch? (patterns.drop 7) ('"' :: rest) := by
      refine first_match_of_none ?_
      rw [hclosed]
      split
      · next after hdrop => exact absurd hdrop (hother after)
      · rfl
    have hmatch : firstMatch? (patterns.drop 7) ('"' :: rest) = some _ :=
      first_match_of_split (first_split_one_run rest (exactly_self '"'))
    rw [hnone, hmatch]
    rfl

/-- Two slashes are taken as a line comment. -/
theorem cut_in_order_line :
    cutInOrder '/' ('/' :: rest) =
      (.lineComment (rest.takeWhile staysInLine), rest.dropWhile staysInLine) := by
  have hline := first_split_two '/' '/' [.run true staysInLine] rest
  rw [first_split_run, Option.map_some] at hline
  rw [cutInOrder, patterns, first_match_pass rfl, first_match_of_split hline]
  rfl

/-- Behind a slash and a star, a closed comment is tried before an open one. -/
theorem cut_in_order_block : cutInOrder '/' ('*' :: rest) = cutSlash ('*' :: rest) := by
  have hclosed := first_split_two '/' '*'
    [.run false fun _ ↦ true, .one (exactly '*'), .one (exactly '/')] rest
  have hopen := first_split_two '/' '*' [.run true fun _ ↦ true] rest
  have htake : rest.takeWhile (fun _ ↦ true) = rest :=
    List.takeWhile_eq_self_iff.mpr fun _ _ ↦ rfl
  have hdrop : rest.dropWhile (fun _ ↦ true) = [] :=
    List.dropWhile_eq_nil_iff.mpr fun _ _ ↦ rfl
  have hline : ∀ c ∈ ('*' :: rest).head?, c ≠ '/' := by
    intro c hc
    cases hc
    decide
  rw [first_split_comment_end] at hclosed
  rw [first_split_run, Option.map_some, htake, hdrop] at hopen
  rw [cutInOrder, patterns, first_match_pass rfl, first_match_of_none (first_split_two_none hline),
    cutSlash]
  cases hend : splitCommentEnd? rest with
  | some parts =>
      rw [hend] at hclosed
      rw [first_match_of_split hclosed]
      simp
  | none =>
      rw [hend] at hclosed
      rw [first_match_of_none hclosed, first_match_of_split hopen]
      rfl

/-- Any other slash matches no pattern and is left to the operators. -/
theorem cut_in_order_division (h : ∀ c ∈ rest.head?, c ≠ '/' ∧ c ≠ '*') :
    cutInOrder '/' rest = (.symbol .slash ['/'], rest) := by
  have hline := fun c hc ↦ (h c hc).1
  have hblock := fun c hc ↦ (h c hc).2
  rw [cutInOrder, patterns, first_match_pass rfl, first_match_of_none (first_split_two_none hline),
    first_match_of_none (first_split_two_none hblock),
    first_match_of_none (first_split_two_none hblock), first_match_pass rfl, first_match_pass rfl,
    first_match_pass rfl, first_match_pass rfl]
  show cutSymbol '/' ([] ++ rest) = _
  exact cut_symbol_of_longest rfl fun _ _ ↦ rfl

/-- A slash is tried as a line comment, then as a closed comment, then as an open one. -/
theorem cut_in_order_slash : cutInOrder '/' rest = cutSlash rest := by
  match rest with
  | [] => exact cut_in_order_division [] nofun
  | c :: after =>
      by_cases hline : c = '/'
      · rw [hline, cut_in_order_line, cutSlash]
      by_cases hblock : c = '*'
      · rw [hblock, cut_in_order_block]
      have hother : ∀ d ∈ (c :: after).head?, d ≠ '/' ∧ d ≠ '*' := by
        intro d hd
        cases hd
        exact ⟨hline, hblock⟩
      rw [cut_in_order_division _ hother, cut_slash_symbol hother]

/-- What no pattern starts with is left to the operators and the punctuation. -/
theorem cut_in_order_symbol (hblank : isBlank c = false) (hword : startsWord c = false)
    (hdigit : c.isDigit = false) (hquote : c ≠ '"') (hslash : c ≠ '/') :
    cutInOrder c rest = cutSymbol c rest := by
  have hquote := exactly_of_ne hquote
  have hslash := exactly_of_ne hslash
  have hstring : firstMatch? (patterns.drop 6) (c :: rest) = none :=
    (first_match_pass hquote).trans (first_match_pass hquote)
  rw [cutInOrder, first_match_behind_numbers rest hblank hslash hword hdigit, hstring]
  rfl

end

/-- The first segment of a text is the match of the first pattern that has one, and where none has
one it is a symbol or a character that has no place in Decaf. -/
theorem cut_eq_in_order (c : Char) (rest : List Char) : cut c rest = cutInOrder c rest := by
  unfold cut
  split
  · next hblank => rw [cut_in_order_blank rest hblank]
  next hblank =>
  split
  · next hword => rw [cut_in_order_word rest hword]
  next hword =>
  split
  · next hdigit => rw [cut_in_order_number rest hdigit]
  next hdigit =>
  split
  · next hquote => rw [hquote, cut_in_order_string]
  next hquote =>
  split
  · next hslash => rw [hslash, cut_in_order_slash]
  next hslash =>
  rw [cut_in_order_symbol rest (by simpa using hblank) (by simpa using hword)
    (by simpa using hdigit) hquote hslash]

end Decaf
