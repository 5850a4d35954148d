import Decaf.Proofs.Scanner.Appending

/-!
# A scan can be resumed behind any unit

Nothing but its place tells a cursor what it has passed. `change_all` says what any moves and any
tokens handed in make of a cursor, and `scan_of_split` what it then scans. Behind some units of a
source the segments left are the last segments of the source (`segments_behind`), in their places,
so that the scan holds what starts there or later (`held_from`). `scan_resumes` is this for whole
sessions, and for those that lead to the end or past it.
-/

namespace Decaf

/-! ## Sessions of a cursor -/

/-- What is done with a cursor before it scans: it is moved over a text, or a token is handed in. -/
inductive Cursor.Change where
  | advance (text : List Char)
  | push (token : Token)

namespace Cursor

/-- The text that a change moves over. -/
def Change.text : Change → List Char
  | advance text => text
  | push _ => []

/-- The token that a change hands in. -/
def Change.token? : Change → Option Token
  | advance _ => none
  | push token => some token

/-- The cursor behind a change. -/
def change (cursor : Cursor) : Change → Cursor
  | .advance text => cursor.advanceOver text
  | .push token => cursor.push token

/-- Changes move the cursor over their texts, one behind the other, and hand in their tokens in
order. -/
theorem change_all (cursor : Cursor) (changes : List Change) :
    changes.foldl change cursor = { cursor with
      position := cursor.position.advance (changes.flatMap Change.text)
      given := cursor.given ++ changes.filterMap Change.token? } := by
  induction changes generalizing cursor with
  | nil => simp
  | cons first changes ih =>
      rw [List.foldl_cons, ih, List.flatMap_cons, Position.advance_append]
      cases first with
      | advance text =>
          rw [List.filterMap_cons_none rfl]
          rfl
      | push token =>
          show { cursor with position := _, given := (cursor.given ++ [token]) ++ _ } = _
          rw [List.append_assoc]
          rfl

end Cursor

/-! ## What is left behind some units -/

/-- The segments of what some of the segments of a text leave are the others. -/
theorem segments_behind {text : List Char} {before after : List Segment}
    (h : segments text = before ++ after) : segments (after.flatMap Segment.text) = after := by
  induction text using segments.induct generalizing before with
  | case1 =>
      rw [segments] at h
      obtain ⟨-, rfl⟩ := List.append_eq_nil_iff.mp h.symm
      rw [List.flatMap_nil, segments]
  | case2 c rest ih =>
      cases before with
      | nil =>
          rw [List.nil_append] at h
          rw [← h, segments_flatten]
      | cons first before =>
          rw [segments] at h
          exact ih (List.cons.inj h).2

/-- The segments of a text that start behind some of them are the others, in their places. -/
theorem placed_from {text : List Char} {before after : List Segment}
    (h : segments text = before ++ after) (file : String) :
    ((place .start (segments text)).filter fun placed ↦
        byteLength (before.flatMap Segment.text) ≤ (placed.span file).start.offset) =
      place (placeBehind before) after := by
  have hearly : ∀ placed ∈ place .start before,
      ¬ byteLength (before.flatMap Segment.text) ≤ (placed.span file).start.offset := by
    intro placed hplaced
    obtain ⟨front, segment, back, rfl, rfl⟩ := mem_place.mp hplaced
    rw [List.append_assoc, List.cons_append] at h
    have hlt := byte_length_lt_of_split h
    show ¬ _ ≤ (placeBehind front).offset
    rw [place_behind_offset]
    omega
  have hlate : ∀ placed ∈ place (placeBehind before) after,
      byteLength (before.flatMap Segment.text) ≤ (placed.span file).start.offset := by
    intro placed hplaced
    obtain ⟨front, segment, back, rfl, rfl⟩ := mem_place.mp hplaced
    show _ ≤ ((placeBehind before).advance _).offset
    rw [Position.advance_offset, place_behind_offset]
    exact Nat.le_add_right _ _
  rw [h, place_append, List.filter_append, List.filter_eq_nil_iff.mpr (by simpa using hearly),
    List.nil_append]
  exact List.filter_eq_self.mpr fun placed hplaced ↦ decide_eq_true (hlate placed hplaced)

/-- What the segments of a text hold that starts behind some of them is held by the others. -/
theorem held_from {α : Type} {held : Placed → Option α} {span : α → Span} {file : String}
    (hspan : ∀ placed value, held placed = some value → span value = placed.span file)
    {text : List Char} {before after : List Segment} (h : segments text = before ++ after) :
    ((place .start (segments text)).filterMap held).filter
        (fun value ↦ byteLength (before.flatMap Segment.text) ≤ (span value).start.offset) =
      (place (placeBehind before) after).filterMap held := by
  rw [held_filter hspan (fun span ↦ byteLength (before.flatMap Segment.text) ≤ span.start.offset),
    placed_from h file]

/-- A scan can be resumed behind any unit of its source. However a new cursor was moved over the
text up to there, and whatever tokens were handed in, it scans these tokens and then exactly the
tokens and diagnostics of the source that start there or later, in their places. Moved to the end or
past it, over any text, it scans the tokens handed in and nothing else. -/
theorem scan_resumes (source file : String) (changes : List Cursor.Change) :
    (∀ before after, unitsOf source = before ++ after →
      changes.flatMap Cursor.Change.text = before.flatten →
        (changes.foldl Cursor.change (.start source file)).scan? =
          some ⟨changes.filterMap Cursor.Change.token? ++
              (tokenize source file).tokens.filter
                (fun token ↦ byteLength before.flatten ≤ token.span.start.offset),
            (tokenize source file).diagnostics.filter
              (fun diagnostic ↦ byteLength before.flatten ≤ diagnostic.span.start.offset)⟩) ∧
      (source.utf8ByteSize ≤ byteLength (changes.flatMap Cursor.Change.text) →
        (changes.foldl Cursor.change (.start source file)).scan? =
          some ⟨changes.filterMap Cursor.Change.token?, []⟩) := by
  rw [Cursor.change_all]
  constructor
  · intro before after hunits htext
    obtain ⟨first, rest, hsplit, rfl, rfl⟩ := List.map_eq_append_iff.mp hunits
    rw [← List.flatMap_def] at htext ⊢
    have hsource : source.toList = first.flatMap Segment.text ++ rest.flatMap Segment.text := by
      rw [← List.flatMap_append, ← hsplit, segments_flatten]
    rw [htext, scan_of_split hsource (place_behind_offset first), Scan.ofText,
      segments_behind hsplit, tokenize, Scan.ofText]
    simp only [Scan.ofPlaced, held_from (fun _ _ ↦ token_span) hsplit,
      held_from (fun _ _ ↦ diagnostic_span) hsplit]
    rfl
  · intro hend
    refine scan_at_end ?_
    show byteLength source.toList ≤ (Position.start.advance _).offset
    rw [byte_length_to_list, Position.advance_offset]
    exact Nat.le_trans hend (Nat.le_add_left _ _)

/-- A cursor that was moved behind a comment of two lines in two parts, and one that was moved past
the end. -/
theorem scan_resumes_behind_comment :
    ([.push ⟨.comma, ",", .none, "g", .start, .start⟩, .advance ['a', '\n', '/', '*', '\n'],
        .advance ['*', '/']].foldl Cursor.change (.start "a\n/*\n*/$b" "f")).scan? =
      some ⟨[⟨.comma, ",", .none, "g", .start, .start⟩,
          ⟨.identifier, "b", .identifier "b", "f", ⟨8, 3, 4⟩, ⟨9, 3, 5⟩⟩],
        [⟨.illegalCharacter '$', "f", ⟨7, 3, 3⟩, ⟨8, 3, 4⟩⟩]⟩ ∧
      ([.advance ['é', '\n'], .push ⟨.comma, ",", .none, "g", .start, .start⟩].foldl Cursor.change
          (.start "ab" "f")).scan? = some ⟨[⟨.comma, ",", .none, "g", .start, .start⟩], []⟩ := by
  have hunits : unitsOf "a\n/*\n*/$b" =
      [['a'], ['\n'], ['/', '*', '\n', '*', '/']] ++ [['$'], ['b']] := by
    decide +kernel
  refine ⟨((scan_resumes _ "f" _).1 _ _ hunits rfl).trans ?_,
    (scan_resumes "ab" "f" _).2 (by decide +kernel)⟩
  decide +kernel

end Decaf
