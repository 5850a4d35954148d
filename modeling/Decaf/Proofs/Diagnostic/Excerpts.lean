import Decaf.Proofs.Diagnostic.Headlines
import Decaf.Proofs.Recognizer.Blame
import Decaf.Proofs.Recognizer.Relevance

/-!
# Reports point at the place of an error

`Surroundings` is a source text as it lies around a place: the line of the place, with its leading
spaces set apart from what is shown of it, and the place behind some of the characters shown. The
report of an error whose place has surroundings shows this line and has its caret behind these
characters (`render_eq`). Every error of a source has a place with surroundings, since it stands at
the start of a token or of a faulty segment, or behind a token (`surroundings_of_start`,
`surroundings_of_stop`). `render_points` puts the two together.
-/

namespace Decaf

/-! ## White space at the end of a line -/

/-- White space at the end of a text does not change what is left without it. -/
theorem trim_end_append_blank {blank : List Char} (text : List Char)
    (h : ∀ c ∈ blank, whiteSpace.contains c = true) : trimEnd (text ++ blank) = trimEnd text := by
  rw [trimEnd, trimEnd, List.reverse_append, List.dropWhile_append_of_pos]
  exact fun c hc ↦ h c (List.mem_reverse.mp hc)

/-- What is left of a text without the white space at its end does not end with white space. -/
theorem trim_end_get_last (text : List Char) :
    ∀ c ∈ (trimEnd text).getLast?, whiteSpace.contains c = false := by
  intro c hc
  rw [trimEnd, List.getLast?_reverse] at hc
  exact head_drop_while _ _ c hc

/-! ## Surroundings of a place -/

/-- A source text around a place of it: what stands before the line of the place, the number of
spaces that the line starts with, the rest of the line before the place and behind it, and what
follows the line. The place stands behind the leading spaces. -/
structure Surroundings (source : List Char) (position : Position) where
  before : List Char
  indent : Nat
  left : List Char
  right : List Char
  after : List Char
  source_eq : source = before ++ (List.replicate indent ' ' ++ (left ++ right) ++ after)
  is_line : IsLine before (List.replicate indent ' ' ++ (left ++ right)) after
  shows : ∃ c ∈ (left ++ right).head?, c ≠ ' '
  offset_eq : position.offset = byteLength (before ++ (List.replicate indent ' ' ++ left))
  line_eq : position.line = 1 + before.count '\n'
  column_eq : position.column = 1 + indent + left.length

/-- A text starts with spaces, and goes on with something else if it has anything else. -/
theorem exists_indent (text : List Char) :
    ∃ indent rest, text = List.replicate indent ' ' ++ rest ∧ ∀ c ∈ rest.head?, c ≠ ' ' := by
  refine ⟨(text.takeWhile (· = ' ')).length, text.dropWhile (· = ' '), ?_, fun c hc ↦ ?_⟩
  · have hspaces : text.takeWhile (· = ' ') =
        List.replicate (text.takeWhile (· = ' ')).length ' ' :=
      List.eq_replicate_of_mem fun c hc ↦ by
        simpa using List.all_eq_true.mp List.all_takeWhile c hc
    rw [← hspaces, List.takeWhile_append_dropWhile]
  · simpa using head_drop_while _ text c hc

section

variable {source : List Char} {position : Position}

/-- A place in a line has surroundings when something else than spaces stands in front of it in the
line, or right behind it. -/
theorem surroundings_of_line {before own right after : List Char}
    (hsource : source = before ++ (own ++ right ++ after))
    (hposition : position = Position.start.advance (before ++ own))
    (hline : IsLine before (own ++ right) after)
    (hshows : (∃ c ∈ own, c ≠ ' ') ∨ ∃ c ∈ right.head?, c ≠ ' ') :
    ∃ parts : Surroundings source position, parts.right = right ∧ parts.after = after := by
  have hown : '\n' ∉ own := fun hmem ↦ hline.whole (List.mem_append_left right hmem)
  rw [advance_start_in_line hline.starts hown] at hposition
  obtain ⟨indent, left, rfl, hleft⟩ := exists_indent own
  rw [List.append_assoc (List.replicate indent ' ')] at hsource hline
  refine ⟨⟨before, indent, left, right, after, hsource, hline, ?_, ?_, ?_, ?_⟩, rfl, rfl⟩
  · cases left with
    | nil =>
        rcases hshows with ⟨c, hc, hother⟩ | hright
        · rw [List.append_nil] at hc
          exact absurd (List.eq_of_mem_replicate hc) hother
        · exact hright
    | cons c left => exact ⟨c, rfl, hleft c rfl⟩
  · rw [hposition, byte_length_append before]
  · rw [hposition]
  · rw [hposition, List.length_append, List.length_replicate, Nat.add_assoc]

/-- A character behind a place that is no newline belongs to the line of the place. -/
theorem head_of_ends {right after : List Char} {c : Char} (hends : EndsLine after)
    (hc : c ∈ (right ++ after).head?) (hnewline : c ≠ '\n') : c ∈ right.head? := by
  cases right with
  | nil => exact absurd (hends c hc) hnewline
  | cons d right => exact hc

/-- A place behind a text that holds no newline has surroundings when this text is not all spaces,
or when it stands in front of something else than a space or a newline. -/
theorem exists_surroundings {front held back : List Char}
    (hsource : source = front ++ (held ++ back))
    (hposition : position = Position.start.advance (front ++ held)) (hheld : '\n' ∉ held)
    (hshows : (∃ c ∈ held, c ≠ ' ') ∨ ∃ c ∈ back.head?, c ≠ ' ' ∧ c ≠ '\n') :
    ∃ parts : Surroundings source position, parts.right ++ parts.after = back := by
  obtain ⟨before, own, right, after, rfl, rfl, hline⟩ := exists_line_around front back
  have hwhole : IsLine before (own ++ held ++ right) after := by
    refine ⟨hline.starts, fun hmem ↦ ?_, hline.ends⟩
    rw [List.append_assoc, List.mem_append, List.mem_append] at hmem
    rcases hmem with hmem | hmem | hmem
    · exact hline.whole (List.mem_append_left right hmem)
    · exact hheld hmem
    · exact hline.whole (List.mem_append_right own hmem)
  have hparts : source = before ++ (own ++ held ++ right ++ after) := by
    rw [hsource]
    simp only [List.append_assoc]
  rw [List.append_assoc] at hposition
  have hshown : (∃ c ∈ own ++ held, c ≠ ' ') ∨ ∃ c ∈ right.head?, c ≠ ' ' := by
    rcases hshows with ⟨c, hc, hspace⟩ | ⟨c, hc, hspace, hnewline⟩
    · exact Or.inl ⟨c, List.mem_append_right own hc, hspace⟩
    · exact Or.inr ⟨c, head_of_ends hline.ends hc hnewline, hspace⟩
  obtain ⟨parts, hright, hafter⟩ := surroundings_of_line hparts hposition hwhole hshown
  exact ⟨parts, by rw [hright, hafter]⟩

end

/-! ## Reports -/

/-- The lines of an excerpt that shows a text and has its caret behind some characters of it. -/
def excerptLines (number : Nat) (shown : List Char) (passed : Nat) : List String :=
  let margin := String.ofList (List.replicate (toString number).length ' ')
  [margin ++ " |", toString number ++ " | " ++ String.ofList shown,
    margin ++ " | " ++ String.ofList (List.replicate passed '-') ++ "^"]

/-- The lines of the report of an error that shows a text. -/
def Diagnostic.reportLines (error : Diagnostic) (shown : List Char) (passed : Nat) : List String :=
  error.title :: ("-> " ++ error.span.file) :: excerptLines error.position.line shown passed

/-- A text of lines, each ended by a newline. -/
def unlines (lines : List String) : String :=
  String.join (lines.map (· ++ "\n"))

/-- The first of some lines, and then the others. -/
theorem unlines_cons (line : String) (lines : List String) :
    unlines (line :: lines) = line ++ "\n" ++ unlines lines :=
  String.join_cons

/-- The characters of the first of some lines, and then those of the others. -/
theorem to_list_unlines_cons (line : String) (lines : List String) :
    (unlines (line :: lines)).toList = line.toList ++ '\n' :: (unlines lines).toList := by
  rw [unlines_cons, String.toList_append, String.toList_append, List.append_assoc]
  rfl

/-- A bar set flush right ends a margin of spaces. -/
theorem flush_right_bar (width : Nat) :
    flushRight (width + 2) "|" = String.ofList (List.replicate width ' ') ++ " |" := by
  show String.ofList (List.replicate (width + 1) ' ') ++ "|" = _
  rw [List.replicate_succ', String.ofList_append, String.append_assoc]
  rfl

section

variable {source : String} {error : Diagnostic}

/-- The line of a place with surroundings is the one they show, with its newline. -/
theorem Surroundings.line_at (parts : Surroundings source.toList error.position) :
    ∃ offset, lineAt? source.toList error.position.offset =
      some ⟨error.position.line, List.replicate parts.indent ' ' ++
        (parts.left ++ parts.right ++ parts.after.take 1), offset⟩ := by
  have hoffset : byteLength (List.replicate parts.indent ' ' ++ parts.left) ≤
      byteLength (List.replicate parts.indent ' ' ++ (parts.left ++ parts.right)) := by
    rw [← List.append_assoc, byte_length_append _ parts.right]
    exact Nat.le_add_right _ _
  have hline := line_at_eq parts.is_line hoffset
  rw [← byte_length_append, ← parts.offset_eq, ← parts.source_eq, ← parts.line_eq,
    List.append_assoc] at hline
  exact ⟨_, hline⟩

/-- An excerpt drops the spaces in front of what it shows, and moves the caret by them. -/
theorem excerpt_eq {shown blank : List Char} {number indent passed offset : Nat}
    (hshown : ∃ c ∈ shown.head?, c ≠ ' ') (hblank : ∀ c ∈ blank, whiteSpace.contains c = true) :
    Diagnostic.excerpt ⟨number, List.replicate indent ' ' ++ (shown ++ blank), offset⟩
        (1 + indent + passed) = unlines (excerptLines number (trimEnd shown) passed) := by
  have hspaces : (List.replicate indent ' ' ++ (shown ++ blank)).takeWhile (· = ' ') =
      List.replicate indent ' ' := by
    refine (take_while_longest (fun c hc ↦ ?_) fun c hc ↦ ?_).1
    · simpa using List.eq_of_mem_replicate hc
    · obtain ⟨first, hfirst, hother⟩ := hshown
      rw [List.head?_append, Option.mem_def.mp hfirst] at hc
      obtain rfl := Option.some.inj hc
      simpa using hother
  have hcolumn : max (1 + indent + passed - indent) 1 = passed + 1 := by omega
  have hdrop : (List.replicate indent ' ' ++ (shown ++ blank)).drop indent = shown ++ blank :=
    List.drop_left' List.length_replicate
  have hbar : " | " = " |" ++ " " := by decide
  simp only [Diagnostic.excerpt, hspaces, List.length_replicate, hcolumn, hdrop, flush_right_bar,
    trim_end_append_blank shown hblank, caret, Nat.add_sub_cancel]
  simp only [excerptLines, unlines, List.map_cons, List.map_nil, String.join_cons, String.join_nil,
    hbar, String.append_assoc, String.append_empty]

/-- The report of an error shows the line around its place, without its leading spaces and without
the white space at its end, and has its caret behind the characters shown before the place. -/
theorem render_eq (parts : Surroundings source.toList error.position) :
    error.render source =
      unlines (error.reportLines (trimEnd (parts.left ++ parts.right)) parts.left.length) := by
  obtain ⟨offset, hline⟩ := parts.line_at
  have hblank : ∀ c ∈ parts.after.take 1, whiteSpace.contains c = true := by
    rcases parts.is_line.ends.cases with h | ⟨rest, h⟩
    · simp [h]
    · rw [h, List.take_succ_cons, List.take_zero]
      exact List.forall_mem_singleton.mpr rfl
  rw [Diagnostic.render, hline, Diagnostic.reportLines, unlines_cons, unlines_cons]
  show error.headline ++ "-> " ++ error.span.file ++ "\n" ++ Diagnostic.excerpt _ _ = _
  rw [parts.column_eq, excerpt_eq parts.shows hblank, headline_eq]
  simp only [String.append_assoc]

example :
    (⟨.illegalCharacter '#', "f", ⟨3, 1, 4⟩, ⟨4, 1, 5⟩⟩ : Diagnostic).render "  x#y\n" =
      "Error: IllegalCharacter (Illegal character '#')\n-> f\n  |\n1 | x#y\n  | -^\n" := by
  decide +kernel

end

/-! ## Places of errors -/

/-- A segment other than a blank starts with a character that is no blank. -/
theorem head_not_blank {text : List Char} {before after : List Segment} {segment : Segment}
    (hsplit : segments text = before ++ segment :: after) (hrole : segment.role ≠ .blank) :
    ∃ c rest, segment.text = c :: rest ∧ c ≠ ' ' ∧ c ≠ '\n' := by
  obtain ⟨c, rest, hcut⟩ := segments_split hsplit
  have hblank : isBlank c ≠ true := by
    intro hc
    rw [cut, if_pos hc] at hcut
    obtain ⟨rfl, -⟩ := Prod.mk.inj hcut
    exact hrole rfl
  obtain ⟨d, tail, htext⟩ := List.exists_cons_of_ne_nil (segments_text_ne_nil hsplit)
  have happend := cut_append c rest
  rw [hcut, htext] at happend
  obtain ⟨rfl, -⟩ := List.cons.inj happend
  refine ⟨d, tail, htext, ?_, ?_⟩
  · rintro rfl
    exact hblank rfl
  · rintro rfl
    exact hblank rfl

/-- Only blanks have their role. -/
theorem blank_of_role {segment : Segment} (h : segment.role = .blank) :
    ∃ c, segment = .blank c := by
  cases segment with
  | blank c => exact ⟨c, rfl⟩
  | _ => cases h

/-- A faulty segment is no blank. -/
theorem role_ne_of_fault {segment : Segment} {cause : Cause} (h : segment.fault? = some cause) :
    segment.role ≠ .blank := by
  intro hrole
  obtain ⟨c, rfl⟩ := blank_of_role hrole
  cases h

/-- A token is no blank. -/
theorem role_ne_of_meaning {segment : Segment} {meaning : TokenKind × TokenValue}
    (h : segment.meaning? = some meaning) : segment.role ≠ .blank := by
  intro hrole
  obtain ⟨c, rfl⟩ := blank_of_role hrole
  cases h

section

variable {source file : String} {before after : List Segment} {segment : Segment}

/-- The start of a segment other than a blank has surroundings, and the segment starts in them. -/
theorem surroundings_of_start (hsplit : segments source.toList = before ++ segment :: after)
    (hrole : segment.role ≠ .blank) :
    ∃ parts : Surroundings source.toList (placeBehind before), parts.right ≠ [] := by
  obtain ⟨c, rest, htext, hspace, hnewline⟩ := head_not_blank hsplit hrole
  have hhead : c ∈ (segment.text ++ after.flatMap Segment.text).head? := by
    rw [htext]
    exact Option.mem_def.mpr rfl
  have hsource : source.toList = before.flatMap Segment.text ++
      ([] ++ (segment.text ++ after.flatMap Segment.text)) :=
    text_of_split hsplit
  have hposition : placeBehind before =
      Position.start.advance (before.flatMap Segment.text ++ []) := by
    rw [List.append_nil, placeBehind]
  obtain ⟨parts, hback⟩ := exists_surroundings hsource hposition List.not_mem_nil
    (Or.inr ⟨c, hhead, hspace, hnewline⟩)
  refine ⟨parts, fun hnil ↦ ?_⟩
  rw [← hback] at hhead
  have hright := head_of_ends parts.is_line.ends hhead hnewline
  rw [hnil] at hright
  cases hright

/-- The place behind a token has surroundings. -/
theorem surroundings_of_stop {token : Token} (h : token ∈ (tokenize source file).tokens) :
    Nonempty (Surroundings source.toList token.span.stop) := by
  obtain ⟨before, segment, after, hsplit, hheld⟩ := mem_tokens.mp h
  obtain ⟨meaning, hmeaning, -⟩ := token_eq_some.mp hheld
  obtain ⟨c, rest, htext, hspace, -⟩ := head_not_blank hsplit (role_ne_of_meaning hmeaning)
  obtain ⟨-, -, hnewline⟩ := token_text hsplit hheld
  have hposition : token.span.stop =
      Position.start.advance (before.flatMap Segment.text ++ segment.text) := by
    rw [token_span hheld, Position.advance_append]
    rfl
  have hmem : c ∈ segment.text := by
    rw [htext]
    exact List.mem_cons_self
  obtain ⟨parts, -⟩ := exists_surroundings (text_of_split hsplit) hposition hnewline
    (Or.inl ⟨c, hmem, hspace⟩)
  exact ⟨parts⟩

/-- An error of a source covers a faulty segment or a token, or is the end of input and stands behind
the last token. -/
theorem reported_place {error : Diagnostic} (h : error.Reported source file) :
    error.span.file = file ∧
      ((error.cause ≠ .unexpectedEndOfInput ∧ ∃ before segment after,
          segments source.toList = before ++ segment :: after ∧
            (segment.fault? = some error.cause ∨ ∃ meaning, segment.meaning? = some meaning) ∧
            error.span = Placed.span file ⟨placeBehind before, segment⟩) ∨
        error.cause = .unexpectedEndOfInput ∧
          ∃ last ∈ (tokenize source file).tokens.getLast?, error.position = last.span.stop) := by
  rcases h with hscanned | hparsed
  · obtain ⟨before, segment, after, hsplit, hheld⟩ := mem_diagnostics.mp hscanned
    obtain ⟨cause, hcause, rfl⟩ := diagnostic_eq_some.mp hheld
    refine ⟨rfl, Or.inl ⟨?_, before, segment, after, hsplit, Or.inl hcause, rfl⟩⟩
    rintro rfl
    cases justified_of_longest (segments_longest hsplit) hcause
  · obtain ⟨reason, -, rfl⟩ := parse_reason hparsed
    have hblames := (parse (tokenize source file).tokens file).1.unexpected_blames reason
    have hmem := Recognizer.current_mem (parse (tokenize source file).tokens file).1
    rw [parse_tokens, List.mem_append, List.mem_singleton] at hmem
    rw [Diagnostic.position, hblames.span]
    rcases hmem with hmem | hmem
    · obtain ⟨before, segment, after, hsplit, hlongest, hmeaning, -, hspan⟩ := token_found hmem
      have hgoes := mt hblames.ends.mp (kind_ne_end hlongest hmeaning)
      exact ⟨congrArg Span.file hspan,
        Or.inl ⟨hgoes, before, segment, after, hsplit, Or.inr ⟨_, hmeaning⟩, hspan⟩⟩
    · rw [hblames.ends, hmem, Recognizer.endToken]
      cases hlast : (tokenize source file).tokens.getLast? with
      | none =>
          rw [List.getLast?_eq_none_iff.mp hlast] at hparsed
          rw [parse, Recognizer.declarations_of_end 0 rfl] at hparsed
          cases hparsed
      | some last =>
          obtain ⟨_, _, _, -, -, -, -, hspan⟩ := token_found (List.mem_of_getLast? hlast)
          exact ⟨congrArg Span.file hspan, Or.inr ⟨rfl, last, rfl, rfl⟩⟩

/-- An error of a source is summed up in one line. -/
theorem reported_summary {error : Diagnostic} (hfile : OneLine file)
    (h : error.Reported source file) : OneLine error.summary := by
  obtain ⟨hname, -⟩ := reported_place h
  rw [← hname] at hfile
  exact one_line_summary hfile

/-- So is an error of a source text that has no file. -/
theorem unnamed_summary {error : Diagnostic} (h : error.Reported source unnamedFile) :
    OneLine error.summary :=
  reported_summary (by decide) h

/-- An error of a source has surroundings, with a character behind its place except at the end of
input. -/
theorem reported_surroundings {error : Diagnostic} (h : error.Reported source file) :
    ∃ parts : Surroundings source.toList error.position,
      error.cause ≠ .unexpectedEndOfInput → parts.right ≠ [] := by
  obtain ⟨-, hplace⟩ := reported_place h
  rcases hplace with ⟨-, before, segment, after, hsplit, hheld, hspan⟩ |
    ⟨hcause, last, hlast, hposition⟩
  · have hposition : error.position = placeBehind before := congrArg Span.start hspan
    have hrole : segment.role ≠ .blank :=
      hheld.elim role_ne_of_fault fun ⟨_, hmeaning⟩ ↦ role_ne_of_meaning hmeaning
    rw [hposition]
    obtain ⟨parts, hright⟩ := surroundings_of_start hsplit hrole
    exact ⟨parts, fun _ ↦ hright⟩
  · rw [hposition]
    obtain ⟨parts⟩ := surroundings_of_stop (List.mem_of_getLast? hlast)
    exact ⟨parts, fun hother ↦ absurd hcause hother⟩

end

/-- The characters shown behind a place are those of the source at its offset. -/
theorem Surroundings.drop_bytes {source : List Char} {position : Position}
    (parts : Surroundings source position) :
    dropBytes? source position.offset = some (parts.right ++ parts.after) := by
  have hsource : source = (parts.before ++ (List.replicate parts.indent ' ' ++ parts.left)) ++
      (parts.right ++ parts.after) :=
    parts.source_eq.trans (by simp only [List.append_assoc])
  have hdrop := drop_bytes_append (parts.before ++ (List.replicate parts.indent ' ' ++ parts.left))
    (parts.right ++ parts.after)
  rwa [← hsource, ← parts.offset_eq] at hdrop

/-- No line of an excerpt is broken if what it shows is not. -/
theorem one_line_excerpt {number : Nat} {shown : List Char} {passed : Nat}
    (hshown : '\n' ∉ shown) : ∀ line ∈ excerptLines number shown passed, OneLine line := by
  have hfill (c : Char) (hc : '\n' ≠ c) (count : Nat) :
      OneLine (String.ofList (List.replicate count c)) :=
    one_line_of_list fun hmem ↦ hc (List.eq_of_mem_replicate hmem)
  have hmargin := hfill ' ' (by decide)
  have hnumber := one_line_number number
  simp only [excerptLines, List.forall_mem_cons, List.not_mem_nil, false_implies, implies_true,
    and_true]
  refine ⟨(hmargin _).append (by decide), ?_, ?_⟩
  · exact (hnumber.append (by decide)).append (one_line_of_list hshown)
  · have hdashes := hfill '-' (by decide) passed
    exact (((hmargin _).append (by decide)).append hdashes).append (by decide)

/-- No line of a report is broken if its title, its file name and what it shows are not. -/
theorem one_line_report {error : Diagnostic} {shown : List Char} {passed : Nat}
    (htitle : OneLine error.title) (hfile : OneLine error.span.file) (hshown : '\n' ∉ shown) :
    ∀ line ∈ error.reportLines shown passed, OneLine line := by
  rw [Diagnostic.reportLines, List.forall_mem_cons, List.forall_mem_cons]
  exact ⟨htitle, OneLine.append (by decide) hfile, one_line_excerpt hshown⟩

/-- The report of every error of a source is five lines, and points at the place of the error. Its
head names the error, with a hint in parentheses except at the end of input. The fourth line shows
the number of the line of the error and this line, without its leading spaces and without the white
space at its end. In the fifth the caret has as many dashes before it as there are characters from
the first that is shown up to the place, so that it is under the character at the offset of the
error, or behind the last token at the end of input. -/
theorem render_points {source file : String} {error : Diagnostic} (hfile : OneLine file)
    (h : error.Reported source file) :
    ∃ (parts : Surroundings source.toList error.position) (shown blank : List Char),
      parts.left ++ parts.right = shown ++ blank ∧
      (∀ c ∈ blank, whiteSpace.contains c = true) ∧
      (∀ c ∈ shown.getLast?, whiteSpace.contains c = false) ∧
      error.render source = unlines (error.reportLines shown parts.left.length) ∧
      (∀ line ∈ error.reportLines shown parts.left.length, OneLine line) ∧
      error.span.file = file ∧
      (error.cause.tip? = none ↔ error.cause = .unexpectedEndOfInput) ∧
      (error.cause ≠ .unexpectedEndOfInput → ∃ c rest,
        dropBytes? source.toList error.position.offset = some (c :: rest) ∧
          (parts.left ++ parts.right)[parts.left.length]? = some c) ∧
      (error.cause = .unexpectedEndOfInput →
        ∃ last ∈ (tokenize source file).tokens.getLast?, error.position = last.span.stop) := by
  obtain ⟨parts, hright⟩ := reported_surroundings h
  obtain ⟨hspan, hplace⟩ := reported_place h
  obtain ⟨blank, hshown, hblank⟩ := trim_end_append (parts.left ++ parts.right)
  have hwhole : '\n' ∉ trimEnd (parts.left ++ parts.right) := by
    intro hmem
    refine parts.is_line.whole (List.mem_append_right _ ?_)
    rw [hshown]
    exact List.mem_append_left blank hmem
  refine ⟨parts, _, blank, hshown, hblank, trim_end_get_last _, render_eq parts,
    one_line_report (reported_title h) (by rwa [hspan]) hwhole, hspan, tip_eq_none_iff,
    fun hcause ↦ ?_, fun hcause ↦ ?_⟩
  · obtain ⟨c, rest, hcons⟩ := List.exists_cons_of_ne_nil (hright hcause)
    refine ⟨c, rest ++ parts.after, ?_, ?_⟩
    · rw [parts.drop_bytes, hcons]
      rfl
    · rw [hcons, List.getElem?_append_right (Nat.le_refl _), Nat.sub_self]
      rfl
  · rcases hplace with ⟨hother, -⟩ | ⟨-, hlast⟩
    · exact absurd hcause hother
    · exact hlast

/-- An illegal character behind two spaces, and the end of input in an unfinished declaration. -/
theorem render_points_unfinished :
    OneLine "f" ∧
      (∃ error : Diagnostic, error.Reported "  #\n  int y" "f" ∧
        ∃ (parts : Surroundings "  #\n  int y".toList error.position) (shown : List Char),
          error.render "  #\n  int y" = unlines (error.reportLines shown parts.left.length) ∧
          ∃ c, (parts.left ++ parts.right)[parts.left.length]? = some c) ∧
      ∃ error : Diagnostic, error.Reported "  #\n  int y" "f" ∧
        ∃ (parts : Surroundings "  #\n  int y".toList error.position) (shown : List Char),
          error.render "  #\n  int y" = unlines (error.reportLines shown parts.left.length) ∧
          ∃ last ∈ (tokenize "  #\n  int y" "f").tokens.getLast?,
            error.position = last.span.stop := by
  have hfile : OneLine "f" := by decide
  have hillegal : Diagnostic.Reported "  #\n  int y" "f"
      ⟨.illegalCharacter '#', "f", ⟨2, 1, 3⟩, ⟨3, 1, 4⟩⟩ :=
    Or.inl (by decide +kernel)
  have hends : Diagnostic.Reported "  #\n  int y" "f"
      ⟨.unexpectedEndOfInput, "f", ⟨11, 2, 8⟩, ⟨11, 2, 8⟩⟩ :=
    Or.inr (by decide +kernel)
  refine ⟨hfile, ⟨_, hillegal, ?_⟩, _, hends, ?_⟩
  · obtain ⟨parts, shown, -, -, -, -, hrender, -, -, -, hpoints, -⟩ := render_points hfile hillegal
    obtain ⟨c, -, -, hc⟩ := hpoints nofun
    exact ⟨parts, shown, hrender, c, hc⟩
  · obtain ⟨parts, shown, -, -, -, -, hrender, -, -, -, -, hlast⟩ := render_points hfile hends
    exact ⟨parts, shown, hrender, hlast rfl⟩

end Decaf
