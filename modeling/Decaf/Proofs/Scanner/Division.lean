import Decaf.Proofs.Scanner.Places
import Decaf.Proofs.Scanner.Stretches
import Decaf.Proofs.Scanner.Symbols

/-!
# The division of a text into longest segments

`Segment.Longest` says what each form of segment looks like and what may follow it: a segment goes
on as far as its form allows. Nothing in it refers to the order in which forms are tried. What is
cut off a text is longest (`cut_longest`), and a longest segment in front of a text is what is cut
off (`cut_of_longest`). So a text has one division into such segments, the one that cutting finds
(`segments_of_longest`, `units_eq_of_longest`).
-/

namespace Decaf

/-- A word: an ASCII letter or an underscore, and then letters, digits and underscores. -/
def IsWord (text : List Char) : Prop :=
  ∃ c rest, text = c :: rest ∧ startsWord c = true ∧ ∀ d ∈ rest, continuesWord d = true

/-- A run of decimal digits. -/
def IsNumber (text : List Char) : Prop :=
  text ≠ [] ∧ ∀ c ∈ text, c.isDigit = true

/-- What may stand between the quotes of a string: no quote and no newline. -/
def IsStringBody (body : List Char) : Prop :=
  '"' ∉ body ∧ '\n' ∉ body

/-- What follows is the end of the line or of the input. -/
def EndsLine (after : List Char) : Prop :=
  ∀ c ∈ after.head?, c = '\n'

/-- At the end of a line nothing follows, or a newline. -/
theorem EndsLine.cases {after : List Char} (h : EndsLine after) :
    after = [] ∨ ∃ rest, after = '\n' :: rest := by
  cases after with
  | nil => exact Or.inl rfl
  | cons c rest => exact Or.inr ⟨rest, by rw [h c rfl]⟩

/-- What a segment is, and how far it goes in front of what follows it. -/
inductive Segment.Longest (after : List Char) : Segment → Prop where
  | blank {c : Char} (hc : isBlank c = true) : Longest after (.blank c)
  | lineComment {body : List Char} (hbody : '\n' ∉ body) (hafter : EndsLine after) :
      Longest after (.lineComment body)
  | blockComment {body : List Char} (hbody : ¬ ['*', '/'] <:+: body ++ ['*']) :
      Longest after (.blockComment body)
  | openComment {body : List Char} (hbody : ¬ ['*', '/'] <:+: body) (hafter : after = []) :
      Longest after (.openComment body)
  | word {letters : List Char} (hletters : IsWord letters)
      (hafter : ∀ c ∈ after.head?, continuesWord c = false) : Longest after (.word letters)
  | number {digits : List Char} (hdigits : IsNumber digits)
      (hafter : ∀ c ∈ after.head?, c.isDigit = false) : Longest after (.number digits)
  | string {body : List Char} (hbody : IsStringBody body) : Longest after (.string body)
  | openString {body : List Char} (hbody : IsStringBody body) (hafter : EndsLine after) :
      Longest after (.openString body)
  | symbol {kind : TokenKind} {spelling : List Char}
      (hsymbol : kind.symbol? = some (String.ofList spelling))
      (hafter : ∀ c ∈ after.head?, operatorKind? (spelling ++ [c]) = none)
      (hslash : kind = .slash → ∀ c ∈ after.head?, c ≠ '/' ∧ c ≠ '*') :
      Longest after (.symbol kind spelling)
  | illegal {c : Char} (hblank : isBlank c = false) (hword : continuesWord c = false)
      (hquote : c ≠ '"') (hoperator : operatorKind? [c] = none)
      (hpunctuation : punctuationKind? c = none)
      (hafter : ∀ d ∈ after.head?, operatorKind? [c, d] = none) : Longest after (.illegal c)

/-! ## Blanks and symbols -/

/-- No symbol holds a blank. -/
theorem symbol_no_blank {kind : TokenKind} {spelling : List Char}
    (h : kind.symbol? = some (String.ofList spelling)) : ∀ c ∈ spelling, isBlank c = false := by
  have hall : ∀ kind ∈ TokenKind.all, ∀ symbol ∈ kind.symbol?,
      symbol.toList.all (fun c ↦ !isBlank c) = true := by
    decide
  have hnone := hall kind kind.mem_all _ h
  rw [String.toList_ofList, List.all_eq_true] at hnone
  exact fun c hc ↦ by simpa using hnone c hc

/-- No operator ends with a blank. -/
theorem operator_kind_blank {c : Char} (hc : isBlank c = true) (spelling : List Char) :
    operatorKind? (spelling ++ [c]) = none := by
  refine Option.eq_none_iff_forall_ne_some.mpr fun kind hkind ↦ ?_
  have hnone := symbol_no_blank (symbol_of_operator hkind) c
    (List.mem_append_right spelling List.mem_cons_self)
  rw [hc] at hnone
  cases hnone

/-! ## What is cut is longest -/

/-- The characters from a quote up to the next one or to the end of the line. -/
theorem is_string_body_take_while (rest : List Char) :
    IsStringBody (rest.takeWhile staysInString) := by
  constructor <;> exact take_while_not_mem (by decide) rest

/-- What a quote starts is longest. -/
theorem cut_string_longest (rest : List Char) : (cutString rest).1.Longest (cutString rest).2 := by
  have hbody := is_string_body_take_while rest
  have hhead := head_drop_while staysInString rest
  unfold cutString
  split
  · exact .string hbody
  · next hopen =>
    refine .openString hbody fun c hc ↦ ?_
    have hstops := hhead c hc
    cases hdrop : rest.dropWhile staysInString with
    | nil =>
        rw [hdrop] at hc
        cases hc
    | cons d after =>
        rw [hdrop] at hc
        cases hc
        have hquote : c ≠ '"' := by
          rintro rfl
          exact hopen after hdrop
        simpa [staysInString, hquote] using hstops

/-- What a slash starts is longest. -/
theorem cut_slash_longest (rest : List Char) : (cutSlash rest).1.Longest (cutSlash rest).2 := by
  unfold cutSlash
  split
  · next rest =>
    refine .lineComment (take_while_not_mem (by decide) rest) fun c hc ↦ ?_
    simpa [staysInLine] using head_drop_while staysInLine rest c hc
  · next rest =>
    split
    · next hsplit => exact .blockComment (split_comment_end_first hsplit)
    · next hsplit => exact .openComment (split_comment_end_none hsplit) rfl
  · next hline hblock =>
    refine .symbol rfl (fun _ _ ↦ rfl) fun _ c hc ↦ ⟨?_, ?_⟩
    · rintro rfl
      obtain ⟨after, rfl⟩ := List.head?_eq_some_iff.mp hc
      exact hline after rfl
    · rintro rfl
      obtain ⟨after, rfl⟩ := List.head?_eq_some_iff.mp hc
      exact hblock after rfl

/-- A symbol, or a character that has no place in Decaf, is longest. -/
theorem cut_symbol_longest {c : Char} (rest : List Char) (hblank : isBlank c = false)
    (hword : continuesWord c = false) (hquote : c ≠ '"') (hslash : c ≠ '/') :
    (cutSymbol c rest).1.Longest (cutSymbol c rest).2 := by
  unfold cutSymbol
  split
  · next kind spelling hmatch =>
    obtain ⟨hkind, after, heq, hafter⟩ := match_operator_eq_some.mp hmatch
    have hsymbol := symbol_of_operator hkind
    have hdrop : (c :: rest).drop spelling.length = after := by rw [heq, List.drop_left]
    rw [hdrop]
    refine .symbol hsymbol hafter ?_
    rintro rfl
    have hspelling : spelling = ['/'] := by
      rw [← String.toList_ofList (l := spelling), ← Option.some.inj hsymbol]
      rfl
    rw [hspelling] at heq
    exact absurd (List.cons.inj heq).1 hslash
  · next hmatch =>
    obtain ⟨hoperator, hafter⟩ := match_operator_eq_none.mp hmatch
    split
    · next kind hkind =>
      refine .symbol (symbol_of_punctuation hkind) hafter ?_
      rintro rfl
      have hspelling := Option.some.inj (symbol_of_punctuation hkind)
      exact absurd (List.cons.inj (String.ofList_injective hspelling)).1.symm hslash
    · next hkind => exact .illegal hblank hword hquote hoperator hkind hafter

/-- What is cut off a text goes as far as its form allows. -/
theorem cut_longest (c : Char) (rest : List Char) : (cut c rest).1.Longest (cut c rest).2 := by
  unfold cut
  split
  · next hblank => exact .blank hblank
  next hblank =>
  split
  · next hstarts =>
    exact .word ⟨c, _, rfl, hstarts, List.all_eq_true.mp List.all_takeWhile⟩
      (head_drop_while continuesWord rest)
  next hstarts =>
  split
  · next hdigit =>
    refine .number ⟨List.cons_ne_nil _ _, ?_⟩ (head_drop_while Char.isDigit rest)
    exact List.forall_mem_cons.mpr ⟨hdigit, List.all_eq_true.mp List.all_takeWhile⟩
  next hdigit =>
  split
  · exact cut_string_longest rest
  next hquote =>
  split
  · exact cut_slash_longest rest
  next hslash =>
  refine cut_symbol_longest rest (by simpa using hblank) ?_ hquote hslash
  rw [continues_word_eq, Bool.or_eq_false_iff]
  exact ⟨by simpa using hstarts, by simpa using hdigit⟩

/-! ## What is longest is cut -/

/-- A text that starts with none of the longer forms is cut like a symbol. -/
theorem cut_eq_cut_symbol {c : Char} (rest : List Char) (hblank : isBlank c = false)
    (hword : continuesWord c = false) (hquote : c ≠ '"') (hslash : c ≠ '/') :
    cut c rest = cutSymbol c rest := by
  rw [continues_word_eq, Bool.or_eq_false_iff] at hword
  simp [cut, hblank, hword.1, hword.2, hquote, hslash]

/-- The first character of a symbol starts no longer form, but for the slash, which is a symbol of
its own. -/
theorem symbol_head {kind : TokenKind} {spelling : List Char}
    (h : kind.symbol? = some (String.ofList spelling)) :
    ∃ c rest, spelling = c :: rest ∧ isBlank c = false ∧ continuesWord c = false ∧ c ≠ '"' ∧
      (c = '/' → kind = .slash ∧ rest = []) := by
  have hall : ∀ kind ∈ TokenKind.all, ∀ symbol ∈ kind.symbol?, symbol.toList.head?.any (fun c ↦
      !isBlank c && !continuesWord c && c != '"' &&
        (c != '/' || decide (kind = .slash ∧ symbol.toList.tail = []))) = true := by
    decide
  have hhead := hall kind kind.mem_all _ h
  rw [String.toList_ofList] at hhead
  cases spelling with
  | nil => cases hhead
  | cons c rest =>
      simp only [List.head?_cons, Option.any_some, Bool.and_eq_true, Bool.not_eq_true',
        bne_iff_ne, Bool.or_eq_true, List.tail_cons] at hhead
      obtain ⟨⟨⟨hblank, hword⟩, hquote⟩, hslash⟩ := hhead
      exact ⟨c, rest, rfl, hblank, hword, hquote,
        fun hc ↦ of_decide_eq_true (hslash.resolve_left (absurd hc))⟩

/-- A symbol that nothing lengthens is cut off the text it heads. -/
theorem cut_symbol_of_longest {kind : TokenKind} {c : Char} {rest after : List Char}
    (hsymbol : kind.symbol? = some (String.ofList (c :: rest)))
    (hafter : ∀ d ∈ after.head?, operatorKind? (c :: rest ++ [d]) = none) :
    cutSymbol c (rest ++ after) = (.symbol kind (c :: rest), after) := by
  rcases symbol_eq_some.mp hsymbol with hkind | ⟨d, heq, hkind⟩
  · have hmatch : matchOperator? (c :: (rest ++ after)) = some (kind, c :: rest) :=
      match_operator_eq_some.mpr ⟨hkind, after, rfl, hafter⟩
    simp [cutSymbol, hmatch]
  · obtain ⟨rfl, rfl⟩ := List.cons.inj heq
    have hmatch : matchOperator? (c :: after) = none :=
      match_operator_eq_none.mpr ⟨operator_kind_of_punctuation hkind, hafter⟩
    simp [cutSymbol, hmatch, hkind]

/-- A comment up to the end of the line is cut off behind the first slash. -/
theorem cut_slash_line {body after : List Char} (hbody : '\n' ∉ body) (hafter : EndsLine after) :
    cutSlash ('/' :: (body ++ after)) = (.lineComment body, after) := by
  have hstays : ∀ c ∈ body, staysInLine c = true := by
    intro c hc
    simpa [staysInLine] using ne_of_mem_of_not_mem hc hbody
  have hstops : ∀ c ∈ after.head?, staysInLine c = false := by
    intro c hc
    simpa [staysInLine] using hafter c hc
  obtain ⟨htake, hdrop⟩ := take_while_longest hstays hstops
  rw [cutSlash, htake, hdrop]

/-- A slash that starts no comment is cut off alone. -/
theorem cut_slash_symbol {after : List Char} (h : ∀ c ∈ after.head?, c ≠ '/' ∧ c ≠ '*') :
    cutSlash after = (.symbol .slash ['/'], after) := by
  unfold cutSlash
  split
  · exact absurd rfl (h '/' rfl).1
  · exact absurd rfl (h '*' rfl).2
  · rfl

/-- The body of a string stays inside it. -/
theorem IsStringBody.stays {body : List Char} (h : IsStringBody body) :
    ∀ c ∈ body, staysInString c = true := by
  intro c hc
  simpa [staysInString] using
    And.intro (ne_of_mem_of_not_mem hc h.1) (ne_of_mem_of_not_mem hc h.2)

/-- A string is cut off up to its closing quote. -/
theorem cut_string_closed {body : List Char} (after : List Char) (hbody : IsStringBody body) :
    cutString (body ++ '"' :: after) = (.string body, after) := by
  have hstops : ∀ c ∈ ('"' :: after).head?, staysInString c = false := by
    intro c hc
    cases hc
    rfl
  obtain ⟨htake, hdrop⟩ := take_while_longest hbody.stays hstops
  simp [cutString, htake, hdrop]

/-- A string without a closing quote is cut off up to the end of the line. -/
theorem cut_string_open {body after : List Char} (hbody : IsStringBody body)
    (hafter : EndsLine after) : cutString (body ++ after) = (.openString body, after) := by
  have hstops : ∀ c ∈ after.head?, staysInString c = false := by
    intro c hc
    rw [hafter c hc]
    rfl
  obtain ⟨htake, hdrop⟩ := take_while_longest hbody.stays hstops
  unfold cutString
  rw [hdrop, htake]
  split
  · cases hafter '"' rfl
  · rfl

/-- A segment that goes as far as its form allows is cut off the text that it heads. -/
theorem cut_of_longest {segment : Segment} {after : List Char} (h : segment.Longest after) :
    ∃ c rest, segment.text ++ after = c :: rest ∧ cut c rest = (segment, after) := by
  cases h with
  | @blank c hc => exact ⟨c, after, rfl, by rw [cut, if_pos hc]⟩
  | @lineComment body hbody hafter =>
      exact ⟨'/', '/' :: (body ++ after), rfl, cut_slash_line hbody hafter⟩
  | @blockComment body hbody =>
      refine ⟨'/', '*' :: (body ++ '*' :: '/' :: after), by simp [Segment.text], ?_⟩
      show cutSlash ('*' :: (body ++ '*' :: '/' :: after)) = _
      rw [cutSlash, split_comment_end_of_first after hbody]
  | @openComment body hbody hafter =>
      subst hafter
      refine ⟨'/', '*' :: body, by simp [Segment.text], ?_⟩
      show cutSlash ('*' :: body) = _
      rw [cutSlash, split_comment_end_of_none hbody]
  | @word letters hletters hafter =>
      obtain ⟨c, rest, rfl, hstarts, hrest⟩ := hletters
      obtain ⟨htake, hdrop⟩ := take_while_longest hrest hafter
      refine ⟨c, rest ++ after, rfl, ?_⟩
      simp [cut, not_blank (Or.inl hstarts), hstarts, htake, hdrop]
  | @number digits hdigits hafter =>
      obtain ⟨hne, hdigits⟩ := hdigits
      obtain ⟨c, rest, rfl⟩ := List.exists_cons_of_ne_nil hne
      obtain ⟨hc, hrest⟩ := List.forall_mem_cons.mp hdigits
      obtain ⟨htake, hdrop⟩ := take_while_longest hrest hafter
      refine ⟨c, rest ++ after, rfl, ?_⟩
      simp [cut, not_blank (Or.inr hc), not_starts_word_of_digit hc, hc, htake, hdrop]
  | @string body hbody =>
      exact ⟨'"', body ++ '"' :: after, by simp [Segment.text], cut_string_closed after hbody⟩
  | @openString body hbody hafter =>
      exact ⟨'"', body ++ after, rfl, cut_string_open hbody hafter⟩
  | @symbol kind spelling hsymbol hafter hslash =>
      obtain ⟨c, rest, rfl, hblank, hword, hquote, hhead⟩ := symbol_head hsymbol
      refine ⟨c, rest ++ after, rfl, ?_⟩
      -- A slash is not left to the table of operators: it may start a comment.
      by_cases hc : c = '/'
      · obtain ⟨rfl, rfl⟩ := hhead hc
        rw [hc]
        exact cut_slash_symbol (hslash rfl)
      · rw [cut_eq_cut_symbol _ hblank hword hquote hc, cut_symbol_of_longest hsymbol hafter]
  | @illegal c hblank hword hquote hoperator hpunctuation hafter =>
      refine ⟨c, after, rfl, ?_⟩
      have hslash : c ≠ '/' := by
        rintro rfl
        cases hoperator
      rw [cut_eq_cut_symbol _ hblank hword hquote hslash]
      simp [cutSymbol, match_operator_eq_none.mpr ⟨hoperator, hafter⟩, hpunctuation]

/-! ## The division of a text -/

/-- A longest segment in front of a text is the first segment of the two together. -/
theorem segments_of_longest {segment : Segment} {after : List Char} (h : segment.Longest after) :
    segments (segment.text ++ after) = segment :: segments after := by
  obtain ⟨c, rest, htext, hcut⟩ := cut_of_longest h
  rw [htext, segments, hcut]

/-- No two longest segments in front of the same text look alike. -/
theorem Segment.Longest.unique {segment other : Segment} {after : List Char}
    (h : segment.Longest after) (hother : other.Longest after) (htext : segment.text = other.text) :
    segment = other := by
  have hsegments := segments_of_longest hother
  rw [← htext, segments_of_longest h] at hsegments
  exact (List.cons.inj hsegments).1

/-- Every segment of a text goes as far as its form allows. -/
theorem segments_longest {text : List Char} {before after : List Segment} {segment : Segment}
    (h : segments text = before ++ segment :: after) :
    segment.Longest (after.flatMap Segment.text) := by
  obtain ⟨c, rest, hcut⟩ := segments_split h
  have hlongest := cut_longest c rest
  rwa [hcut] at hlongest

/-- Texts that are longest segments, each in front of the next, are the segments of the whole. -/
theorem units_eq_of_longest {units : List (List Char)}
    (h : ∀ before text after, units = before ++ text :: after →
      ∃ segment : Segment, segment.text = text ∧ segment.Longest after.flatten) :
    (segments units.flatten).map Segment.text = units := by
  induction units with
  | nil => rw [List.flatten_nil, segments, List.map_nil]
  | cons text units ih =>
      obtain ⟨segment, rfl, hlongest⟩ := h [] text units rfl
      have hrest := ih fun before text after heq ↦ h (_ :: before) text after (by rw [heq]; rfl)
      rw [List.flatten_cons, segments_of_longest hlongest, List.map_cons, hrest]

end Decaf
