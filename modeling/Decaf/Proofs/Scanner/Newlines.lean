import Decaf.Proofs.Scanner.Division

/-!
# A newline ends what stands before it

A newline closes words, numbers, operators, line comments and unclosed strings just as the end of
the input does, and only an unclosed comment goes on behind it (`Segment.Longest.before_newline`).
So two texts with a newline between them are cut like each of them alone (`segments_newline`).
What the second holds is the same as in a source of its own, but for the place: `Position.shift`
moves it down and keeps its columns (`place_shift`, `tokenize_newline`).
-/

namespace Decaf

/-! ## Segments on both sides -/

/-- What holds of a newline and of the next character holds of the next one in front of a
newline. -/
theorem head_before_newline {holds : Char → Prop} {after : List Char}
    (h : ∀ c ∈ after.head?, holds c) (hnewline : holds '\n') (rest : List Char) :
    ∀ c ∈ (after ++ '\n' :: rest).head?, holds c := by
  intro c hc
  cases after with
  | nil =>
      cases hc
      exact hnewline
  | cons d after =>
      cases hc
      exact h c rfl

/-- A segment that goes as far as its form allows goes no further in front of a newline, unless it
is an unclosed comment. -/
theorem Segment.Longest.before_newline {segment : Segment} {after : List Char}
    (h : segment.Longest after) (hopen : ∀ body, segment ≠ .openComment body) (rest : List Char) :
    segment.Longest (after ++ '\n' :: rest) := by
  cases h with
  | blank hc => exact .blank hc
  | lineComment hbody hafter => exact .lineComment hbody (head_before_newline hafter rfl rest)
  | blockComment hbody => exact .blockComment hbody
  | openComment => exact absurd rfl (hopen _)
  | word hletters hafter =>
      exact .word hletters (head_before_newline hafter (by decide) rest)
  | number hdigits hafter =>
      exact .number hdigits (head_before_newline hafter (by decide) rest)
  | string hbody => exact .string hbody
  | openString hbody hafter => exact .openString hbody (head_before_newline hafter rfl rest)
  | symbol hsymbol hafter hslash =>
      refine .symbol hsymbol (head_before_newline hafter (operator_kind_blank rfl _) rest) ?_
      exact fun hkind ↦ head_before_newline (hslash hkind) (by decide) rest
  | illegal hblank hword hquote hoperator hpunctuation hafter =>
      exact .illegal hblank hword hquote hoperator hpunctuation
        (head_before_newline hafter (operator_kind_blank rfl [_]) rest)

/-- A newline is a segment of its own between the segments of two texts, if the first text has no
unclosed comment. -/
theorem segments_newline {first : List Char} (h : ∀ body, .openComment body ∉ segments first)
    (second : List Char) :
    segments (first ++ '\n' :: second) =
      segments first ++ .blank '\n' :: segments second := by
  induction first using segments.induct with
  | case1 =>
      rw [segments, List.nil_append, List.nil_append]
      exact segments_of_longest (.blank rfl)
  | case2 c rest ih =>
      -- The first segment is longest in front of the newline too, so it is cut off again.
      rw [segments] at h
      have hopen (body : List Char) : (cut c rest).1 ≠ .openComment body :=
        fun heq ↦ h body (heq ▸ List.mem_cons_self)
      have hlongest := (cut_longest c rest).before_newline hopen second
      rw [segments, ← cut_append c rest, List.append_assoc, segments_of_longest hlongest,
        ih fun body hmem ↦ h body (List.mem_cons_of_mem _ hmem), List.cons_append]

/-! ## Places further down -/

/-- A position some bytes and some whole lines further on. -/
def Position.shift (bytes lines : Nat) (position : Position) : Position :=
  ⟨position.offset + bytes, position.line + lines, position.column⟩

/-- A span some bytes and some whole lines further on. -/
def Span.shift (bytes lines : Nat) (span : Span) : Span :=
  ⟨span.file, span.start.shift bytes lines, span.stop.shift bytes lines⟩

/-- A token some bytes and some whole lines further on. -/
def Token.shift (bytes lines : Nat) (token : Token) : Token :=
  { token with span := token.span.shift bytes lines }

/-- A diagnostic some bytes and some whole lines further on. -/
def Diagnostic.shift (bytes lines : Nat) (diagnostic : Diagnostic) : Diagnostic :=
  { diagnostic with span := diagnostic.span.shift bytes lines }

/-- A segment placed some bytes and some whole lines further on. -/
def Placed.shift (bytes lines : Nat) (placed : Placed) : Placed :=
  { placed with start := placed.start.shift bytes lines }

section

variable {bytes lines : Nat}

/-- Reading on from further down ends further down. -/
theorem advance_shift (position : Position) (text : List Char) :
    (position.shift bytes lines).advance text = (position.advance text).shift bytes lines := by
  induction text generalizing position with
  | nil => rfl
  | cons c text ih =>
      have hpast : (position.shift bytes lines).past c = (position.past c).shift bytes lines := by
        unfold Position.past
        split <;> simp only [Position.shift, Position.mk.injEq, and_true] <;> omega
      rw [Position.advance_cons, hpast, ih, Position.advance_cons]

/-- Segments placed from further down on are all placed further down. -/
theorem place_shift (start : Position) (pieces : List Segment) :
    place (start.shift bytes lines) pieces =
      (place start pieces).map (Placed.shift bytes lines) := by
  induction pieces generalizing start with
  | nil => rfl
  | cons segment rest ih =>
      rw [place, advance_shift, ih]
      rfl

/-- Further down a segment covers a span further down. -/
theorem span_shift (file : String) (placed : Placed) :
    (placed.shift bytes lines).span file = (placed.span file).shift bytes lines := by
  have hstop : (placed.shift bytes lines).stop = placed.stop.shift bytes lines :=
    advance_shift placed.start placed.segment.text
  rw [Placed.span, hstop]
  rfl

/-- Further down a segment holds the same token. -/
theorem token_shift (file : String) (placed : Placed) :
    (placed.shift bytes lines).token? file =
      (placed.token? file).map (Token.shift bytes lines) := by
  rw [Placed.token?, span_shift, Placed.token?, Option.map_map]
  rfl

/-- Further down a segment calls for the same diagnostic. -/
theorem diagnostic_shift (file : String) (placed : Placed) :
    (placed.shift bytes lines).diagnostic? file =
      (placed.diagnostic? file).map (Diagnostic.shift bytes lines) := by
  rw [Placed.diagnostic?, span_shift, Placed.diagnostic?, Option.map_map]
  rfl

end

/-- Behind a text and a newline reading goes on at the start of a line. -/
theorem advance_newline (text : List Char) :
    (Position.start.advance text).past '\n' =
      Position.start.shift (byteLength text + 1) (1 + text.count '\n') := by
  have hsize : '\n'.utf8Size = 1 := by decide
  rw [Position.past, if_pos rfl, Position.advance_offset, Position.advance_line, hsize]
  simp only [Position.start, Position.shift, Position.mk.injEq, and_true]
  omega

/-- What the segments of two texts with a newline between them hold is what those of the first hold,
and then what those of the second hold, further down. -/
theorem held_newline {α : Type} {held : Placed → Option α} {move : Nat → Nat → α → α}
    (hshift : ∀ bytes lines placed,
      held (placed.shift bytes lines) = (held placed).map (move bytes lines))
    (hblank : ∀ start, held ⟨start, .blank '\n'⟩ = none) {first : List Char}
    (hopen : ∀ body, .openComment body ∉ segments first) (second : List Char) :
    (place .start (segments (first ++ '\n' :: second))).filterMap held =
      (place .start (segments first)).filterMap held ++
        ((place .start (segments second)).filterMap held).map
          (move (byteLength first + 1) (1 + first.count '\n')) := by
  have hbehind : (Position.start.advance first).advance (Segment.blank '\n').text =
      Position.start.shift (byteLength first + 1) (1 + first.count '\n') := advance_newline first
  rw [segments_newline hopen, place_append, segments_flatten, place, hbehind, place_shift,
    List.filterMap_append, List.filterMap_cons_none (hblank _), List.filterMap_map,
    List.map_filterMap]
  simp only [Function.comp_def, hshift]

/-- A scan without the diagnostic of an unclosed comment has no unclosed comment. -/
theorem no_open_comment {source file : String}
    (h : ∀ diagnostic ∈ (tokenize source file).diagnostics,
      diagnostic.cause ≠ .unterminatedComment) (body : List Char) :
    .openComment body ∉ segments source.toList := by
  intro hmem
  obtain ⟨before, after, hsplit⟩ := List.append_of_mem hmem
  exact h _ (mem_diagnostics.mpr ⟨before, _, after, hsplit, rfl⟩) rfl

/-- Recovery ends with the line. If a source has no unclosed comment, then a newline and more text
behind it leave its tokens and diagnostics as they are, and add those of the text in a source of its
own, moved down to where it stands. -/
theorem tokenize_newline {first file : String}
    (h : ∀ diagnostic ∈ (tokenize first file).diagnostics,
      diagnostic.cause ≠ .unterminatedComment) (second : String) :
    (tokenize (first ++ "\n" ++ second) file).tokens =
        (tokenize first file).tokens ++ (tokenize second file).tokens.map
          (Token.shift (first.utf8ByteSize + 1) (1 + first.toList.count '\n')) ∧
      (tokenize (first ++ "\n" ++ second) file).diagnostics =
        (tokenize first file).diagnostics ++ (tokenize second file).diagnostics.map
          (Diagnostic.shift (first.utf8ByteSize + 1) (1 + first.toList.count '\n')) := by
  have hsource : (first ++ "\n" ++ second).toList = first.toList ++ '\n' :: second.toList := by
    rw [String.toList_append, String.toList_append, List.append_assoc]
    rfl
  have hopen := no_open_comment h
  rw [← byte_length_to_list, tokenize, hsource]
  constructor
  · exact held_newline (fun _ _ ↦ token_shift file) (fun _ ↦ rfl) hopen second.toList
  · exact held_newline (fun _ _ ↦ diagnostic_shift file) (fun _ ↦ rfl) hopen second.toList

/-- An unclosed string and half an operator end with their line. -/
theorem tokenize_newline_recovers :
    (∀ diagnostic ∈ (tokenize "x & \"a" "f").diagnostics,
        diagnostic.cause ≠ .unterminatedComment) ∧
      (tokenize ("x & \"a" ++ "\n" ++ "& y\"") "f").tokens =
        (tokenize "x & \"a" "f").tokens ++ (tokenize "& y\"" "f").tokens.map
          (Token.shift ("x & \"a".utf8ByteSize + 1) (1 + "x & \"a".toList.count '\n')) ∧
      (tokenize ("x & \"a" ++ "\n" ++ "& y\"") "f").diagnostics =
        (tokenize "x & \"a" "f").diagnostics ++ (tokenize "& y\"" "f").diagnostics.map
          (Diagnostic.shift ("x & \"a".utf8ByteSize + 1) (1 + "x & \"a".toList.count '\n')) := by
  have hclosed : ∀ diagnostic ∈ (tokenize "x & \"a" "f").diagnostics,
      diagnostic.cause ≠ .unterminatedComment := by
    decide +kernel
  exact ⟨hclosed, tokenize_newline hclosed "& y\""⟩

end Decaf
