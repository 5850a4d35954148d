import Decaf.Proofs.Scanner.Units

/-!
# Text behind the last unit

A segment is settled as soon as one character stands behind it: only the last segment of a text can
go on, or turn into another one, when more text is appended (`Segment.Longest.before_more`). So all
segments but the last are cut off the longer text too (`segments_append`), in the same places. What
a scan holds of them are the tokens and diagnostics that end before the end of the text
(`placed_before_end`), and these come first in the scan of the longer text (`tokenize_append`).
-/

namespace Decaf

/-! ## Segments -/

/-- A segment that goes as far as its form allows in front of some text goes no further when more
text stands behind that. -/
theorem Segment.Longest.before_more {segment : Segment} {after : List Char}
    (h : segment.Longest after) (hne : after ≠ []) (more : List Char) :
    segment.Longest (after ++ more) := by
  obtain ⟨d, rest, rfl⟩ := List.exists_cons_of_ne_nil hne
  -- No form looks further than one character, and that is the same in both texts.
  cases h with
  | blank hc => exact .blank hc
  | lineComment hbody hafter => exact .lineComment hbody hafter
  | blockComment hbody => exact .blockComment hbody
  | openComment hbody hafter => exact absurd hafter hne
  | word hletters hafter => exact .word hletters hafter
  | number hdigits hafter => exact .number hdigits hafter
  | string hbody => exact .string hbody
  | openString hbody hafter => exact .openString hbody hafter
  | symbol hsymbol hafter hslash => exact .symbol hsymbol hafter hslash
  | illegal hblank hword hquote hoperator hpunctuation hafter =>
      exact .illegal hblank hword hquote hoperator hpunctuation hafter

/-- All segments of a text but the last are the first segments of a longer text. -/
theorem segments_append (first second : List Char) :
    (segments first).dropLast <+: segments (first ++ second) := by
  induction first using segments.induct with
  | case1 =>
      rw [segments]
      exact List.nil_prefix
  | case2 c rest ih =>
      rw [segments]
      by_cases hlast : (cut c rest).2 = []
      · rw [hlast, segments]
        exact List.nil_prefix
      · have hmore : segments (cut c rest).2 ≠ [] := by
          intro hnil
          have hflatten := segments_flatten (cut c rest).2
          rw [hnil] at hflatten
          exact hlast hflatten.symm
        rw [List.dropLast_cons_of_ne_nil hmore, ← cut_append c rest, List.append_assoc,
          segments_of_longest ((cut_longest c rest).before_more hlast second),
          List.prefix_cons_inj]
        exact ih

/-- The first segments of a text are placed first. -/
theorem place_of_first {first whole : List Segment} (h : first <+: whole) (start : Position) :
    place start first <+: place start whole := by
  obtain ⟨rest, rfl⟩ := h
  rw [place_append]
  exact List.prefix_append _ _

/-! ## What ends before the end -/

/-- A segment ends where its text does. -/
theorem placed_stop_offset (before : List Segment) (segment : Segment) :
    (Placed.stop ⟨placeBehind before, segment⟩).offset =
      byteLength ((before ++ [segment]).flatMap Segment.text) := by
  rw [Placed.stop, Position.advance_offset, place_behind_offset, List.flatMap_append,
    byte_length_append, List.flatMap_singleton]

/-- The segments of a text that end before its end are all but the last. -/
theorem placed_before_end (text : List Char) (file : String) :
    ((place .start (segments text)).filter fun placed ↦
        (placed.span file).stop.offset < byteLength text) =
      place .start (segments text).dropLast := by
  rcases List.eq_nil_or_concat (segments text) with hnil | ⟨before, last, hlast⟩
  · rw [hnil]
    rfl
  rw [List.concat_eq_append] at hlast
  have htext : text = (before ++ [last]).flatMap Segment.text := by rw [← hlast, segments_flatten]
  have hpos := byte_length_pos (segments_text_ne_nil hlast)
  have hearly : ∀ placed ∈ place .start before,
      (placed.span file).stop.offset < byteLength text := by
    intro placed hplaced
    obtain ⟨front, segment, back, rfl, rfl⟩ := mem_place.mp hplaced
    show (Placed.stop ⟨placeBehind front, segment⟩).offset < byteLength text
    rw [placed_stop_offset, htext]
    simp only [List.flatMap_append, List.flatMap_cons, List.flatMap_nil, byte_length_append,
      byte_length_nil]
    omega
  have hlate : ∀ placed ∈ place (placeBehind before) [last],
      ¬ (placed.span file).stop.offset < byteLength text := by
    intro placed hplaced
    obtain rfl := List.mem_singleton.mp hplaced
    show ¬ (Placed.stop ⟨placeBehind before, last⟩).offset < byteLength text
    rw [placed_stop_offset, ← htext]
    exact Nat.lt_irrefl _
  rw [hlast, List.dropLast_concat, place_append, List.filter_append,
    List.filter_eq_self.mpr (by simpa using hearly)]
  show _ ++ (place (placeBehind before) [last]).filter _ = _
  rw [List.filter_eq_nil_iff.mpr (by simpa using hlate), List.append_nil]

/-- What the segments of a text hold and what ends before its end comes first when more text is
appended. -/
theorem held_append {α : Type} {held : Placed → Option α} {span : α → Span} {file : String}
    (hspan : ∀ placed value, held placed = some value → span value = placed.span file)
    (first second : List Char) :
    ((place .start (segments first)).filterMap held).filter
        (fun value ↦ (span value).stop.offset < byteLength first) <+:
      (place .start (segments (first ++ second))).filterMap held := by
  rw [held_filter hspan (fun span ↦ span.stop.offset < byteLength first), placed_before_end]
  exact (place_of_first (segments_append first second) .start).filterMap held

/-- A unit that is not the last is a unit of the longer text too, in the same role. -/
theorem units_append {first file : String} {before after : List (List Char)} {text : List Char}
    (hunits : unitsOf first = before ++ text :: after) (hafter : after ≠ []) (second : String) :
    ∃ later, unitsOf (first ++ second) = before ++ text :: later ∧
      ∀ role, Role.Holds (tokenize first file) before.flatten text after.flatten role ↔
        Role.Holds (tokenize (first ++ second) file) before.flatten text later.flatten role := by
  obtain ⟨front, segment, rest, hsplit, rfl, rfl, rfl⟩ := units_of_split.mp hunits
  have hrest : rest ≠ [] := fun hnil ↦ hafter (by rw [hnil]; rfl)
  obtain ⟨more, hmore⟩ := segments_append first.toList second.toList
  rw [hsplit, List.dropLast_append_of_ne_nil (List.cons_ne_nil segment rest),
    List.dropLast_cons_of_ne_nil hrest, List.append_assoc, List.cons_append,
    ← String.toList_append] at hmore
  refine ⟨(rest.dropLast ++ more).map Segment.text,
    units_of_split.mpr ⟨front, segment, _, hmore.symm, rfl, rfl, rfl⟩, fun role ↦ ?_⟩
  simp only [← List.flatMap_def]
  rw [role_holds_iff hsplit, role_holds_iff hmore.symm]

/-- Appended text affects the last unit only. Every other unit of a source is a unit of the longer
source, in the same role, and the tokens and diagnostics that end before the end of the source are
the first ones of the longer source, with their places. -/
theorem tokenize_append (first second file : String) :
    (∀ before text after, unitsOf first = before ++ text :: after → after ≠ [] →
        ∃ later, unitsOf (first ++ second) = before ++ text :: later ∧
          ∀ role, Role.Holds (tokenize first file) before.flatten text after.flatten role ↔
            Role.Holds (tokenize (first ++ second) file) before.flatten text later.flatten role) ∧
      (tokenize first file).tokens.filter
          (fun token ↦ token.span.stop.offset < first.utf8ByteSize) <+:
        (tokenize (first ++ second) file).tokens ∧
      (tokenize first file).diagnostics.filter
          (fun diagnostic ↦ diagnostic.span.stop.offset < first.utf8ByteSize) <+:
        (tokenize (first ++ second) file).diagnostics := by
  refine ⟨fun _ _ _ hunits hafter ↦ units_append hunits hafter second, ?_⟩
  rw [← byte_length_to_list, tokenize, tokenize, String.toList_append]
  exact ⟨held_append (fun _ _ ↦ token_span) _ _, held_append (fun _ _ ↦ diagnostic_span) _ _⟩

/-- Half an operator at the end is completed by the text behind it, and the unclosed string in the
line above stays what it is. -/
theorem tokenize_append_operator :
    (∃ later, unitsOf ("\"a\nx<" ++ "=\"") = [] ++ ['"', 'a'] :: later ∧
        ∀ role, Role.Holds (tokenize "\"a\nx<" "f") [] ['"', 'a'] ['\n', 'x', '<'] role ↔
          Role.Holds (tokenize ("\"a\nx<" ++ "=\"") "f") [] ['"', 'a'] later.flatten role) ∧
      [(⟨.identifier, "x", .identifier "x", "f", ⟨3, 2, 1⟩, ⟨4, 2, 2⟩⟩ : Token)] <+:
        (tokenize ("\"a\nx<" ++ "=\"") "f").tokens ∧
      [(⟨.unterminatedString "\"a", "f", ⟨0, 1, 1⟩, ⟨2, 1, 3⟩⟩ : Diagnostic)] <+:
        (tokenize ("\"a\nx<" ++ "=\"") "f").diagnostics := by
  have hunits : unitsOf "\"a\nx<" = [] ++ ['"', 'a'] :: [['\n'], ['x'], ['<']] := by
    decide +kernel
  have htokens : (tokenize "\"a\nx<" "f").tokens.filter
      (fun token ↦ token.span.stop.offset < "\"a\nx<".utf8ByteSize) =
        [⟨.identifier, "x", .identifier "x", "f", ⟨3, 2, 1⟩, ⟨4, 2, 2⟩⟩] := by
    decide +kernel
  have hdiagnostics : (tokenize "\"a\nx<" "f").diagnostics.filter
      (fun diagnostic ↦ diagnostic.span.stop.offset < "\"a\nx<".utf8ByteSize) =
        [⟨.unterminatedString "\"a", "f", ⟨0, 1, 1⟩, ⟨2, 1, 3⟩⟩] := by
    decide +kernel
  obtain ⟨hsame, hfirst, hfaults⟩ := tokenize_append "\"a\nx<" "=\"" "f"
  rw [htokens] at hfirst
  rw [hdiagnostics] at hfaults
  exact ⟨hsame _ _ _ hunits (by decide), hfirst, hfaults⟩

end Decaf
