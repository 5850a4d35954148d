import Decaf.Scanner.Scan

/-!
# Where segments stand

Every token and every diagnostic of a scan comes from one segment, and this segment starts where
the text of those before it ends. `segments_split` reopens the scan at any segment: it is the first
segment of the text that was left there. Since no segment is empty, the bytes in front of a segment
tell it from all others (`segments_split_unique`), and what stands behind it is reached by reading
on (`place_pairwise`).
-/

namespace Decaf

/-- A text with characters has bytes. -/
theorem byte_length_pos {text : List Char} (h : text ≠ []) : 0 < byteLength text := by
  cases text with
  | nil => exact absurd rfl h
  | cons c rest =>
      have hpos := c.utf8Size_pos
      rw [byte_length_cons]
      omega

/-- The place behind some segments of a text. -/
def placeBehind (before : List Segment) : Position :=
  Position.start.advance (before.flatMap Segment.text)

/-- Behind some segments all their bytes have been read. -/
theorem place_behind_offset (before : List Segment) :
    (placeBehind before).offset = byteLength (before.flatMap Segment.text) := by
  rw [placeBehind, Position.advance_offset]
  exact Nat.zero_add _

/-- A segment is placed where the text of those before it ends. -/
theorem mem_place {start : Position} {pieces : List Segment} {placed : Placed} :
    placed ∈ place start pieces ↔ ∃ before segment after, pieces = before ++ segment :: after ∧
      placed = ⟨start.advance (before.flatMap Segment.text), segment⟩ := by
  induction pieces generalizing start with
  | nil => simp [place]
  | cons first rest ih =>
      rw [place, List.mem_cons, ih]
      constructor
      · rintro (rfl | ⟨before, segment, after, rfl, rfl⟩)
        · exact ⟨[], first, rest, rfl, rfl⟩
        · refine ⟨first :: before, segment, after, rfl, ?_⟩
          rw [List.flatMap_cons, Position.advance_append]
      · intro hplaced
        obtain ⟨before, segment, after, heq, rfl⟩ := hplaced
        cases before with
        | nil =>
            obtain ⟨rfl, rfl⟩ := List.cons.inj heq
            exact Or.inl rfl
        | cons head before =>
            obtain ⟨rfl, rfl⟩ := List.cons.inj heq
            refine Or.inr ⟨before, segment, after, rfl, ?_⟩
            rw [List.flatMap_cons, Position.advance_append]

/-- What is placed behind something is reached from its end by reading on. -/
theorem place_pairwise (start : Position) (pieces : List Segment) :
    (place start pieces).Pairwise fun first second ↦
      ∃ text, second.start = first.stop.advance text := by
  induction pieces generalizing start with
  | nil => exact List.Pairwise.nil
  | cons first rest ih =>
      refine List.Pairwise.cons (fun placed hplaced ↦ ?_) (ih (start.advance first.text))
      obtain ⟨before, segment, after, -, rfl⟩ := mem_place.mp hplaced
      exact ⟨before.flatMap Segment.text, rfl⟩

/-- Every segment is the first of the text that was left in front of it. -/
theorem segments_split {text : List Char} {before after : List Segment} {segment : Segment}
    (h : segments text = before ++ segment :: after) :
    ∃ c rest, cut c rest = (segment, after.flatMap Segment.text) := by
  induction text using segments.induct generalizing before with
  | case1 =>
      rw [segments] at h
      simp at h
  | case2 c rest ih =>
      rw [segments] at h
      cases before with
      | nil =>
          obtain ⟨rfl, rfl⟩ := List.cons.inj h
          exact ⟨c, rest, by rw [segments_flatten]⟩
      | cons head before => exact ih (List.cons.inj h).2

/-- No segment of a text is empty. -/
theorem segments_text_ne_nil {text : List Char} {before after : List Segment} {segment : Segment}
    (h : segments text = before ++ segment :: after) : segment.text ≠ [] := by
  obtain ⟨c, rest, hcut⟩ := segments_split h
  have hne := cut_text_ne_nil c rest
  rwa [hcut] at hne

/-- A text is the texts of its segments, around each of them. -/
theorem text_of_split {text : List Char} {before after : List Segment} {segment : Segment}
    (h : segments text = before ++ segment :: after) :
    text = before.flatMap Segment.text ++ (segment.text ++ after.flatMap Segment.text) := by
  rw [← List.flatMap_cons, ← List.flatMap_append, ← h, segments_flatten]

/-- A segment further on has more bytes in front of it. -/
theorem byte_length_lt_of_split {text : List Char} {first middle after : List Segment}
    {segment : Segment} (h : segments text = first ++ segment :: (middle ++ after)) :
    byteLength (first.flatMap Segment.text) <
      byteLength ((first ++ segment :: middle).flatMap Segment.text) := by
  have hpos := byte_length_pos (segments_text_ne_nil h)
  simp only [List.flatMap_append, List.flatMap_cons, byte_length_append]
  omega

/-- The bytes in front of a segment tell it from all others. -/
theorem segments_split_unique {text : List Char}
    {before after otherBefore otherAfter : List Segment} {segment other : Segment}
    (h : segments text = before ++ segment :: after)
    (hother : segments text = otherBefore ++ other :: otherAfter)
    (hbytes : byteLength (before.flatMap Segment.text) =
      byteLength (otherBefore.flatMap Segment.text)) :
    before = otherBefore ∧ segment = other := by
  rcases List.append_eq_append_iff.mp (h.symm.trans hother) with ⟨middle, rfl, hmiddle⟩ |
    ⟨middle, rfl, hmiddle⟩
  · cases middle with
    | nil => exact ⟨(List.append_nil before).symm, (List.cons.inj hmiddle).1⟩
    | cons head middle =>
        obtain ⟨rfl, rfl⟩ := List.cons.inj hmiddle
        have hlt := byte_length_lt_of_split h
        omega
  · cases middle with
    | nil => exact ⟨List.append_nil otherBefore, (List.cons.inj hmiddle).1.symm⟩
    | cons head middle =>
        obtain ⟨rfl, rfl⟩ := List.cons.inj hmiddle
        have hlt := byte_length_lt_of_split hother
        omega

/-! ## What segments hold -/

section

variable {α : Type} {held : Placed → Option α} {text : List Char}

/-- What the segments of a text hold is held by one of them, in its place. -/
theorem mem_held {value : α} :
    value ∈ (place .start (segments text)).filterMap held ↔
      ∃ before segment after, segments text = before ++ segment :: after ∧
        held ⟨placeBehind before, segment⟩ = some value := by
  rw [List.mem_filterMap]
  constructor
  · intro hheld
    obtain ⟨placed, hplaced, hvalue⟩ := hheld
    obtain ⟨before, segment, after, hsplit, rfl⟩ := mem_place.mp hplaced
    exact ⟨before, segment, after, hsplit, hvalue⟩
  · intro hheld
    obtain ⟨before, segment, after, hsplit, hvalue⟩ := hheld
    exact ⟨_, mem_place.mpr ⟨before, segment, after, hsplit, rfl⟩, hvalue⟩

/-- What has the span of its segment is held by the segment that starts where it does. -/
theorem held_of_start {before after : List Segment} {segment : Segment} {span : α → Span}
    {file : String}
    (hspan : ∀ placed value, held placed = some value → span value = placed.span file)
    (hsplit : segments text = before ++ segment :: after) {value : α}
    (hvalue : value ∈ (place .start (segments text)).filterMap held)
    (hstart : (span value).start.offset = byteLength (before.flatMap Segment.text)) :
    held ⟨placeBehind before, segment⟩ = some value := by
  obtain ⟨otherBefore, other, otherAfter, hother, hheld⟩ := mem_held.mp hvalue
  rw [hspan _ _ hheld] at hstart
  obtain ⟨rfl, rfl⟩ := segments_split_unique hsplit hother
    (hstart.symm.trans (place_behind_offset otherBefore))
  exact hheld

/-- Choosing by their spans from what segments hold is choosing from the segments. -/
theorem held_filter {span : α → Span} {file : String}
    (hspan : ∀ placed value, held placed = some value → span value = placed.span file)
    (chosen : Span → Bool) (pieces : List Placed) :
    (pieces.filterMap held).filter (fun value ↦ chosen (span value)) =
      (pieces.filter fun placed ↦ chosen (placed.span file)).filterMap held := by
  rw [List.filter_filterMap, List.filterMap_filter]
  refine congrArg (List.filterMap · pieces) (funext fun placed ↦ ?_)
  cases hheld : held placed with
  | none => rw [Option.filter_none, ite_self]
  | some value => rw [Option.filter_some, hspan placed value hheld]

/-- What has the span of its segment is held in source order. -/
theorem held_pairwise (file : String) {span : α → Span}
    (hspan : ∀ placed value, held placed = some value → span value = placed.span file) :
    ((place .start (segments text)).filterMap held).Pairwise fun first second ↦
      ∃ between, (span second).start = (span first).stop.advance between := by
  refine List.pairwise_filterMap.mpr ((place_pairwise _ _).imp ?_)
  intro first second hreach value hvalue later hlater
  rw [hspan first value hvalue, hspan second later hlater]
  exact hreach

end

section

variable {source file : String}

/-- A token has the kind of its segment, the text and the span. -/
theorem token_eq_some {placed : Placed} {token : Token} :
    placed.token? file = some token ↔
      ∃ meaning, placed.segment.meaning? = some meaning ∧
        token = ⟨meaning.1, String.ofList placed.segment.text, meaning.2, placed.span file⟩ := by
  rw [Placed.token?, Option.map_eq_some_iff]
  simp only [eq_comm]

/-- A diagnostic has the fault of its segment and the span. -/
theorem diagnostic_eq_some {placed : Placed} {diagnostic : Diagnostic} :
    placed.diagnostic? file = some diagnostic ↔
      ∃ cause, placed.segment.fault? = some cause ∧ diagnostic = ⟨cause, placed.span file⟩ := by
  rw [Placed.diagnostic?, Option.map_eq_some_iff]
  simp only [eq_comm]

/-- A token has the span of its segment. -/
theorem token_span {placed : Placed} {token : Token} (h : placed.token? file = some token) :
    token.span = placed.span file := by
  obtain ⟨_, -, rfl⟩ := token_eq_some.mp h
  rfl

/-- A diagnostic has the span of its segment. -/
theorem diagnostic_span {placed : Placed} {diagnostic : Diagnostic}
    (h : placed.diagnostic? file = some diagnostic) : diagnostic.span = placed.span file := by
  obtain ⟨_, -, rfl⟩ := diagnostic_eq_some.mp h
  rfl

/-- The tokens of a scan are those of its segments, each in its place. -/
theorem mem_tokens {token : Token} :
    token ∈ (tokenize source file).tokens ↔
      ∃ before segment after, segments source.toList = before ++ segment :: after ∧
        Placed.token? file ⟨placeBehind before, segment⟩ = some token :=
  mem_held

/-- The diagnostics of a scan are those of its segments, each in its place. -/
theorem mem_diagnostics {diagnostic : Diagnostic} :
    diagnostic ∈ (tokenize source file).diagnostics ↔
      ∃ before segment after, segments source.toList = before ++ segment :: after ∧
        Placed.diagnostic? file ⟨placeBehind before, segment⟩ = some diagnostic :=
  mem_held

/-- A later token is reached from the end of an earlier one by reading on. -/
theorem tokens_pairwise :
    (tokenize source file).tokens.Pairwise fun first second ↦
      ∃ between, second.span.start = first.span.stop.advance between :=
  held_pairwise file fun _ _ ↦ token_span

/-- A later diagnostic is reached from the end of an earlier one by reading on. -/
theorem diagnostics_pairwise :
    (tokenize source file).diagnostics.Pairwise fun first second ↦
      ∃ between, second.span.start = first.span.stop.advance between :=
  held_pairwise file fun _ _ ↦ diagnostic_span

end

end Decaf
