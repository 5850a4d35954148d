import Decaf.Proofs.Recognizer.Relevance
import Decaf.Proofs.Scanner.Faults

/-!
# Single spaces between tokens

In front of a blank the text of a token is cut off as the same token again
(`Segment.Longest.before_blank`), so the lexemes of some tokens with single spaces between them are
cut into just these tokens (`segments_spaced`). What a scan says of kinds, texts, values and causes
depends on the segments, and not on their places (`contents_eq`, `causes_eq`). `tokenize_spaced`
concludes that spacing out the tokens of a source loses its blanks, its comments and its faulty
pieces, and nothing else.
-/

namespace Decaf

/-! ## Tokens in front of a blank -/

/-- The segment of a token goes no further in front of a blank. -/
theorem Segment.Longest.before_blank {segment : Segment} {after : List Char}
    (h : segment.Longest after) (hrole : segment.role = .token) {c : Char}
    (hc : isBlank c = true) (rest : List Char) : segment.Longest (c :: rest) := by
  have hhead {holds : Char → Prop} (hholds : holds c) : ∀ d ∈ (c :: rest).head?, holds d := by
    intro d hd
    cases hd
    exact hholds
  have hstarts : startsWord c = false := by
    by_contra hstarts
    rw [not_blank (Or.inl (by simpa using hstarts))] at hc
    cases hc
  have hdigit : c.isDigit = false := by
    by_contra hdigit
    rw [not_blank (Or.inr (by simpa using hdigit))] at hc
    cases hc
  cases h with
  | word hletters =>
      exact .word hletters (hhead (by rw [continues_word_eq, hstarts, hdigit, Bool.or_false]))
  | number hdigits => exact .number hdigits (hhead hdigit)
  | string hbody => exact .string hbody
  | symbol hsymbol =>
      refine .symbol hsymbol (hhead (operator_kind_blank hc _)) fun _ ↦ hhead ⟨?_, ?_⟩
      · rintro rfl
        cases hc
      · rintro rfl
        cases hc
  | _ => cases hrole

/-- The texts of tokens with single spaces between them are cut into the tokens and the spaces. -/
theorem segments_spaced {pieces : List Segment}
    (h : ∀ segment ∈ pieces, segment.role = .token ∧ ∃ after, segment.Longest after) :
    segments ([' '].intercalate (pieces.map Segment.text)) =
      pieces.intersperse (.blank ' ') := by
  induction pieces with
  | nil => simp [segments]
  | cons segment rest ih =>
      obtain ⟨hrole, after, hlongest⟩ := h segment List.mem_cons_self
      cases rest with
      | nil =>
          have halone := segments_of_longest (hlongest.alone hrole)
          rw [List.append_nil, segments] at halone
          simpa using halone
      | cons second rest =>
          have hrest := ih fun segment hmem ↦ h segment (List.mem_cons_of_mem _ hmem)
          rw [List.map_cons] at hrest
          rw [List.map_cons, List.map_cons, List.intercalate_cons_cons, List.append_assoc,
            List.singleton_append, segments_of_longest (hlongest.before_blank hrole rfl _),
            List.intersperse_cons_cons, ← hrest]
          exact congrArg (segment :: ·) (segments_of_longest (.blank rfl))

/-! ## What a scan says without places -/

/-- Kind, text and value of a token, without its place. -/
def Token.content (token : Token) : TokenKind × String × TokenValue :=
  (token.kind, token.lexeme, token.value)

/-- Kind, text and value of the token that a segment holds. -/
def Segment.content? (segment : Segment) : Option (TokenKind × String × TokenValue) :=
  segment.meaning?.map fun meaning ↦ (meaning.1, String.ofList segment.text, meaning.2)

/-- What is told of the placed segments of a text without their places is told of the segments. -/
theorem held_told {α β : Type} {held : Placed → Option α} {view : α → β}
    {told : Segment → Option β} (h : ∀ placed, (held placed).map view = told placed.segment)
    (start : Position) (pieces : List Segment) :
    ((place start pieces).filterMap held).map view = pieces.filterMap told := by
  rw [List.map_filterMap]
  induction pieces generalizing start with
  | nil => rfl
  | cons segment rest ih => rw [place, List.filterMap_cons, List.filterMap_cons, ih, h]

/-- The segments that are no tokens hold none. -/
theorem meaning_of_role_ne {segment : Segment} (h : segment.role ≠ .token) :
    segment.meaning? = none := by
  refine Option.eq_none_iff_forall_ne_some.mpr fun meaning hmeaning ↦ ?_
  exact h (meaning_iff_role.mp ⟨meaning, hmeaning⟩)

/-- The contents of the tokens of a source are those of its segments. -/
theorem contents_eq (source file : String) :
    (tokenize source file).tokens.map Token.content =
      (segments source.toList).filterMap Segment.content? := by
  refine held_told (fun placed ↦ ?_) .start (segments source.toList)
  rw [Placed.token?, Option.map_map]
  rfl

/-- The causes of the diagnostics of a source are the faults of its segments. -/
theorem causes_eq (source file : String) :
    (tokenize source file).diagnostics.map Diagnostic.cause =
      (segments source.toList).filterMap Segment.fault? := by
  refine held_told (fun placed ↦ ?_) .start (segments source.toList)
  rw [Placed.diagnostic?, Option.map_map]
  exact congrFun Option.map_id _

/-- The segments of a source that are tokens. -/
def tokenPieces (source : String) : List Segment :=
  (segments source.toList).filter fun segment ↦ segment.role = .token

/-- The contents of a source are those of the segments that are tokens. -/
theorem content_token_pieces (source : String) :
    (tokenPieces source).filterMap Segment.content? =
      (segments source.toList).filterMap Segment.content? := by
  rw [tokenPieces, List.filterMap_filter]
  refine List.filterMap_congr fun segment _ ↦ ?_
  by_cases hrole : segment.role = .token
  · rw [if_pos (decide_eq_true hrole)]
  · rw [if_neg (by simpa using hrole), Segment.content?, meaning_of_role_ne hrole, Option.map_none]

/-- The segments that are tokens are tokens, and longest where they stand. -/
theorem token_pieces_longest {source : String} {segment : Segment}
    (h : segment ∈ tokenPieces source) :
    segment.role = .token ∧ ∃ after, segment.Longest after := by
  obtain ⟨hmem, hrole⟩ := List.mem_filter.mp h
  obtain ⟨before, after, hsplit⟩ := List.append_of_mem hmem
  exact ⟨of_decide_eq_true hrole, _, segments_longest hsplit⟩

/-- What is not told of separators is told of what they stand between. -/
theorem filter_map_intersperse {α β : Type} {told : α → Option β} {separator : α}
    (h : told separator = none) (pieces : List α) :
    (pieces.intersperse separator).filterMap told = pieces.filterMap told := by
  induction pieces with
  | nil => rfl
  | cons first rest ih =>
      cases rest with
      | nil => rfl
      | cons second rest =>
          rw [List.intersperse_cons_cons, List.filterMap_cons, List.filterMap_cons_none h, ih]
          rfl

/-! ## Sources spaced out -/

/-- The lexemes of the tokens with single spaces between them. -/
def Scan.spaced (scan : Scan) : String :=
  " ".intercalate (scan.tokens.map Token.lexeme)

/-- The lexemes of a source are the texts of the segments that are tokens. -/
theorem lexemes_eq (source file : String) :
    (tokenize source file).tokens.map Token.lexeme =
      (tokenPieces source).map fun segment ↦ String.ofList segment.text := by
  have hlexemes := congrArg (List.map fun content ↦ content.2.1) (contents_eq source file)
  rw [List.map_map, ← content_token_pieces, List.map_filterMap] at hlexemes
  have hall : ∀ segment ∈ tokenPieces source, (segment.content?.map fun content ↦ content.2.1) =
      some (String.ofList segment.text) := by
    intro segment hsegment
    obtain ⟨meaning, hmeaning⟩ := meaning_iff_role.mpr (token_pieces_longest hsegment).1
    rw [Segment.content?, hmeaning]
    rfl
  rw [← congrFun List.filterMap_eq_map (tokenPieces source)]
  exact hlexemes.trans (List.filterMap_congr hall)

/-- A source spaced out has the texts of its tokens, and spaces. -/
theorem to_list_spaced (source file : String) :
    (tokenize source file).spaced.toList =
      [' '].intercalate ((tokenPieces source).map Segment.text) := by
  rw [Scan.spaced, String.toList_intercalate, lexemes_eq, List.map_map]
  simp [Function.comp_def]

/-- A source spaced out falls into its tokens and the spaces between them. -/
theorem segments_of_spaced (source file : String) :
    segments (tokenize source file).spaced.toList =
      (tokenPieces source).intersperse (.blank ' ') := by
  rw [to_list_spaced]
  exact segments_spaced fun _ ↦ token_pieces_longest

/-- The faults of tokens are numbers out of range, and of other segments there are no such
faults. -/
theorem overflow_causes (source file : String) :
    ((tokenize source file).diagnostics.filter fun diagnostic ↦ diagnostic.IsOverflow).map
        Diagnostic.cause =
      (tokenPieces source).filterMap Segment.fault? := by
  show (((place .start (segments source.toList)).filterMap (Placed.diagnostic? file)).filter _).map
    _ = _
  rw [List.filter_filterMap, tokenPieces, List.filterMap_filter]
  refine held_told (fun placed ↦ ?_) .start (segments source.toList)
  rw [Placed.diagnostic?]
  cases hfault : placed.segment.fault? with
  | none => simp
  | some cause =>
      by_cases hoverflow : ∃ literal, cause = .integerOverflow literal
      · obtain ⟨literal, rfl⟩ := hoverflow
        obtain ⟨digits, hdigits, -⟩ := number_of_overflow hfault
        simp [hdigits, Segment.role, Diagnostic.IsOverflow]
      · have hrole : placed.segment.role = .diagnostic :=
          fault_iff_role.mp ⟨cause, hfault, fun literal heq ↦ hoverflow ⟨literal, heq⟩⟩
        simp [hrole, Diagnostic.IsOverflow, hoverflow]

/-- Spacing out the tokens of a source keeps their kinds, texts and values, and of the diagnostics
those of numbers out of range. Doing it twice changes nothing more, and a parse accepts the tokens
spaced out where it accepts the tokens of the source, with the same number of declarations. -/
theorem tokenize_spaced (source file other : String) :
    (tokenize (tokenize source file).spaced other).tokens.map Token.content =
        (tokenize source file).tokens.map Token.content ∧
      (tokenize (tokenize source file).spaced other).diagnostics.map Diagnostic.cause =
        ((tokenize source file).diagnostics.filter fun diagnostic ↦ diagnostic.IsOverflow).map
          Diagnostic.cause ∧
      (tokenize (tokenize source file).spaced other).spaced = (tokenize source file).spaced ∧
      ∀ count,
        (parse (tokenize (tokenize source file).spaced other).tokens other).2 = .accepted count ↔
          (parse (tokenize source file).tokens file).2 = .accepted count := by
  have hcontents : (tokenize (tokenize source file).spaced other).tokens.map Token.content =
      (tokenize source file).tokens.map Token.content := by
    rw [contents_eq, contents_eq, segments_of_spaced, filter_map_intersperse rfl,
      content_token_pieces]
  refine ⟨hcontents, ?_, ?_, fun count ↦ ?_⟩
  · rw [causes_eq, segments_of_spaced, filter_map_intersperse rfl, overflow_causes]
  · have hlexemes := congrArg (List.map fun content ↦ content.2.1) hcontents
    rw [List.map_map, List.map_map] at hlexemes
    exact congrArg (String.intercalate " ") hlexemes
  · have hkinds := congrArg (List.map Prod.fst) hcontents
    rw [List.map_map, List.map_map] at hkinds
    have hsame : kindsToEnd (tokenize (tokenize source file).spaced other).tokens =
        kindsToEnd (tokenize source file).tokens :=
      congrArg (· ++ [TokenKind.endOfInput]) hkinds
    constructor
    · exact (parse_matches (by rw [hsame]) file).2.accepted
    · exact (parse_matches (by rw [hsame]) other).2.accepted

/-- Comments, illegal characters and what an unclosed string holds are gone. -/
example : (tokenize "a<=/ /*b*/ \"c  //\"$\n07// d\n\"e" "f").spaced = "a <= / \"c  //\" 07" := by
  decide +kernel

end Decaf
