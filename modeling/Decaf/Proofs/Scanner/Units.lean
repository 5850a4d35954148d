import Decaf.Proofs.Scanner.Forms
import Decaf.Proofs.Scanner.Places
import Decaf.Scanner.Cursor
import Mathlib.Logic.ExistsUnique

/-!
# A scan covers its source

The texts of the segments are the units of a source text. `role_holds_iff` says what a unit is: the
role of its segment and no other, since a skipped form is told by its text and a token or a
diagnostic by where it starts. `tokenize_units` puts the units together to the whole source and
accounts for every token and every diagnostic.
-/

namespace Decaf

/-- A span covers a text that stands behind another. -/
def Span.Covers (span : Span) (before text : List Char) : Prop :=
  span.start.offset = byteLength before ∧ span.stop.offset = byteLength before + byteLength text

section

variable {span : Span} {before text : List Char}

/-- A span is as long as the text that it covers. -/
theorem Span.Covers.length_eq (h : span.Covers before text) : span.length = byteLength text := by
  rw [Span.length, h.1, h.2, Nat.add_sub_cancel_left]

/-- A span is empty if the text that it covers is. -/
theorem Span.Covers.is_empty_iff (h : span.Covers before text) :
    span.isEmpty = true ↔ text = [] := by
  rw [Span.isEmpty, beq_iff_eq, h.1, h.2]
  cases text with
  | nil => exact iff_of_true rfl rfl
  | cons c rest =>
      have hpos := byte_length_pos (List.cons_ne_nil c rest)
      exact iff_of_false (by omega) (List.cons_ne_nil c rest)

end

/-- A diagnostic about a number out of range, which is a token all the same. -/
def Diagnostic.IsOverflow (diagnostic : Diagnostic) : Prop :=
  ∃ literal, diagnostic.cause = .integerOverflow literal

/-- A text between two others has a role in a scan: it looks like a blank or a comment, or it is
what exactly one token or diagnostic covers. -/
def Role.Holds (scan : Scan) (before text after : List Char) : Role → Prop
  | .blank => IsBlankText text
  | .lineComment => IsLineComment text after
  | .blockComment => IsBlockComment text
  | .token =>
    ∃ token ∈ scan.tokens, token.span.Covers before text ∧ token.lexeme = String.ofList text ∧
      ∀ other ∈ scan.tokens, other.span.Covers before text → other = token
  | .diagnostic =>
    ∃ diagnostic ∈ scan.diagnostics, ¬ diagnostic.IsOverflow ∧
      diagnostic.span.Covers before text ∧
      ∀ other ∈ scan.diagnostics, ¬ other.IsOverflow → other.span.Covers before text →
        other = diagnostic

/-- The segments that call for a diagnostic, other than numbers out of range. -/
theorem fault_iff_role {segment : Segment} :
    (∃ cause, segment.fault? = some cause ∧ ∀ literal, cause ≠ .integerOverflow literal) ↔
      segment.role = .diagnostic := by
  cases segment with
  | number digits =>
      simp only [Segment.fault?, Segment.role, reduceCtorEq, iff_false]
      intro hfault
      obtain ⟨cause, hcause, hother⟩ := hfault
      split at hcause
      · cases hcause
      · exact hother _ (Option.some.inj hcause).symm
  | _ => simp [Segment.fault?, Segment.role]

/-- Only numbers are out of range. -/
theorem number_of_overflow {segment : Segment} {literal : String}
    (h : segment.fault? = some (.integerOverflow literal)) :
    ∃ digits, segment = .number digits ∧ literal = String.ofList digits := by
  cases segment with
  | number digits =>
      rw [Segment.fault?] at h
      split at h
      · cases h
      · exact ⟨digits, rfl, (Cause.integerOverflow.inj (Option.some.inj h)).symm⟩
  | _ => cases h

section

variable {source file : String} {before after : List Segment} {segment : Segment}

/-- A placed segment covers its own text. -/
theorem placed_covers : (Placed.span file ⟨placeBehind before, segment⟩).Covers
    (before.flatMap Segment.text) segment.text := by
  refine ⟨place_behind_offset before, ?_⟩
  rw [← place_behind_offset before]
  exact Position.advance_offset _ _

/-- A unit is the one token that covers it when its segment is a token. -/
theorem token_holds_iff (hsplit : segments source.toList = before ++ segment :: after) :
    Role.token.Holds (tokenize source file) (before.flatMap Segment.text) segment.text
      (after.flatMap Segment.text) ↔ segment.role = .token := by
  have hheld {token : Token} (htoken : token ∈ (tokenize source file).tokens)
      (hcovers : token.span.Covers (before.flatMap Segment.text) segment.text) :
      Placed.token? file ⟨placeBehind before, segment⟩ = some token :=
    held_of_start (fun _ _ ↦ token_span) hsplit htoken hcovers.1
  rw [← meaning_iff_role]
  constructor
  · intro hholds
    obtain ⟨token, htoken, hcovers, -, -⟩ := hholds
    obtain ⟨meaning, hmeaning, -⟩ := token_eq_some.mp (hheld htoken hcovers)
    exact ⟨meaning, hmeaning⟩
  · intro hmeant
    obtain ⟨meaning, hmeaning⟩ := hmeant
    have htoken : Placed.token? file ⟨placeBehind before, segment⟩ = some _ :=
      token_eq_some.mpr ⟨meaning, hmeaning, rfl⟩
    refine ⟨_, mem_tokens.mpr ⟨before, segment, after, hsplit, htoken⟩, placed_covers, rfl, ?_⟩
    intro other hother hcovers
    exact Option.some.inj ((hheld hother hcovers).symm.trans htoken)

/-- A unit is the one diagnostic that covers it when its segment calls for one. -/
theorem diagnostic_holds_iff (hsplit : segments source.toList = before ++ segment :: after) :
    Role.diagnostic.Holds (tokenize source file) (before.flatMap Segment.text) segment.text
      (after.flatMap Segment.text) ↔ segment.role = .diagnostic := by
  have hheld {diagnostic : Diagnostic}
      (hdiagnostic : diagnostic ∈ (tokenize source file).diagnostics)
      (hcovers : diagnostic.span.Covers (before.flatMap Segment.text) segment.text) :
      Placed.diagnostic? file ⟨placeBehind before, segment⟩ = some diagnostic :=
    held_of_start (fun _ _ ↦ diagnostic_span) hsplit hdiagnostic hcovers.1
  rw [← fault_iff_role]
  constructor
  · intro hholds
    obtain ⟨diagnostic, hdiagnostic, hoverflow, hcovers, -⟩ := hholds
    obtain ⟨cause, hcause, rfl⟩ := diagnostic_eq_some.mp (hheld hdiagnostic hcovers)
    exact ⟨cause, hcause, fun literal heq ↦ hoverflow ⟨literal, heq⟩⟩
  · intro hfault
    obtain ⟨cause, hcause, hother⟩ := hfault
    have hdiagnostic : Placed.diagnostic? file ⟨placeBehind before, segment⟩ = some _ :=
      diagnostic_eq_some.mpr ⟨cause, hcause, rfl⟩
    refine ⟨_, mem_diagnostics.mpr ⟨before, segment, after, hsplit, hdiagnostic⟩, ?_, placed_covers,
      ?_⟩
    · intro hoverflow
      obtain ⟨literal, heq⟩ := hoverflow
      exact hother literal heq
    · intro other hmem _ hcovers
      exact Option.some.inj ((hheld hmem hcovers).symm.trans hdiagnostic)

/-- A unit has the role of its segment and no other. -/
theorem role_holds_iff (hsplit : segments source.toList = before ++ segment :: after)
    (role : Role) :
    role.Holds (tokenize source file) (before.flatMap Segment.text) segment.text
      (after.flatMap Segment.text) ↔ segment.role = role := by
  have hformed := (segments_longest hsplit).formed
  cases role with
  | blank => exact hformed.blank
  | lineComment => exact hformed.line
  | blockComment => exact hformed.block
  | token => exact token_holds_iff hsplit
  | diagnostic => exact diagnostic_holds_iff hsplit

end

/-- A cursor that is moved over texts one after the other ends behind all of them. -/
theorem foldl_advance_over (cursor : Cursor) (units : List (List Char)) :
    (units.foldl Cursor.advanceOver cursor).position = cursor.position.advance units.flatten := by
  induction units generalizing cursor with
  | nil => rfl
  | cons text units ih =>
      rw [List.foldl_cons, ih, List.flatten_cons, Position.advance_append]
      rfl

/-- At the end of its source or past it, a cursor has nothing left to scan. -/
theorem scan_at_end {cursor : Cursor}
    (h : byteLength cursor.source ≤ cursor.position.offset) :
    cursor.scan? = some ⟨cursor.given, []⟩ := by
  rw [Cursor.scan?, Cursor.atEnd, if_pos (decide_eq_true h)]

/-- A cursor that stands behind the first part of its source scans the second. -/
theorem scan_of_split {cursor : Cursor} {front back : List Char}
    (hsource : cursor.source = front ++ back)
    (hoffset : cursor.position.offset = byteLength front) :
    cursor.scan? = some ⟨cursor.given ++ (Scan.ofText cursor.file cursor.position back).tokens,
      (Scan.ofText cursor.file cursor.position back).diagnostics⟩ := by
  unfold Cursor.scan?
  split
  · next hend =>
    have hle : byteLength cursor.source ≤ cursor.position.offset := of_decide_eq_true hend
    rw [hsource, hoffset, byte_length_append] at hle
    cases back with
    | nil =>
        rw [Scan.ofText, segments]
        simp [Scan.ofPlaced, place]
    | cons c back =>
        have hpos := byte_length_pos (List.cons_ne_nil c back)
        omega
  · rw [Cursor.remainder?, hsource, hoffset, drop_bytes_append]
    rfl

/-- Scanning from a cursor at the start is scanning the source. -/
theorem scan_start (source file : String) :
    (Cursor.start source file).scan? = some (tokenize source file) :=
  scan_of_split (List.nil_append _).symm rfl

/-- The units of a source text. -/
def unitsOf (source : String) : List (List Char) :=
  (segments source.toList).map Segment.text

/-- The units of a source text joined are the text. -/
theorem units_of_flatten (source : String) : (unitsOf source).flatten = source.toList := by
  rw [unitsOf, ← List.flatMap_def, segments_flatten]

/-- A unit is the text of a segment. -/
theorem units_of_split {source : String} {before after : List (List Char)} {text : List Char} :
    unitsOf source = before ++ text :: after ↔
      ∃ first segment rest, segments source.toList = first ++ segment :: rest ∧
        before = first.map Segment.text ∧ text = segment.text ∧ after = rest.map Segment.text := by
  constructor
  · intro h
    obtain ⟨first, tail, hsplit, rfl, htail⟩ := List.map_eq_append_iff.mp h
    obtain ⟨segment, rest, rfl, rfl, rfl⟩ := List.map_eq_cons_iff.mp htail
    exact ⟨first, segment, rest, hsplit, rfl, rfl, rfl⟩
  · intro hpieces
    obtain ⟨first, segment, rest, hsplit, rfl, rfl, rfl⟩ := hpieces
    rw [unitsOf, hsplit, List.map_append, List.map_cons]

/-- A unit is not empty and has exactly one role. -/
theorem units_of_role {source file : String} {before after : List (List Char)} {text : List Char}
    (h : unitsOf source = before ++ text :: after) :
    text ≠ [] ∧
      ∃! role, Role.Holds (tokenize source file) before.flatten text after.flatten role := by
  obtain ⟨first, segment, rest, hsplit, rfl, rfl, rfl⟩ := units_of_split.mp h
  refine ⟨segments_text_ne_nil hsplit, segment.role, ?_, fun role hrole ↦ ?_⟩
  · rw [← List.flatMap_def, ← List.flatMap_def]
    exact (role_holds_iff hsplit segment.role).mpr rfl
  · rw [← List.flatMap_def, ← List.flatMap_def] at hrole
    exact ((role_holds_iff hsplit role).mp hrole).symm

/-- What a segment holds covers a unit. -/
theorem units_of_covered {source file : String} {first rest : List Segment} {segment : Segment}
    (hsplit : segments source.toList = first ++ segment :: rest) :
    ∃ before text after, unitsOf source = before ++ text :: after ∧
      (Placed.span file ⟨placeBehind first, segment⟩).Covers before.flatten text := by
  refine ⟨_, _, _, units_of_split.mpr ⟨first, segment, rest, hsplit, rfl, rfl, rfl⟩, ?_⟩
  rw [← List.flatMap_def]
  exact placed_covers

/-- A number out of range is a token all the same. -/
theorem overflow_token {source file : String} {diagnostic : Diagnostic}
    (hmem : diagnostic ∈ (tokenize source file).diagnostics) (h : diagnostic.IsOverflow) :
    ∃ token ∈ (tokenize source file).tokens, token.kind = .intLiteral ∧
      diagnostic.cause = .integerOverflow token.lexeme ∧ diagnostic.span = token.span := by
  obtain ⟨before, segment, after, hsplit, hheld⟩ := mem_diagnostics.mp hmem
  obtain ⟨cause, hcause, rfl⟩ := diagnostic_eq_some.mp hheld
  obtain ⟨literal, rfl⟩ := h
  obtain ⟨digits, rfl, rfl⟩ := number_of_overflow hcause
  exact ⟨_, mem_tokens.mpr ⟨before, _, after, hsplit, rfl⟩, rfl, rfl, rfl⟩

/-- What is reached by reading on lies no earlier. -/
theorem offset_le_of_advance {first second : Position}
    (h : ∃ between, second = first.advance between) : first.offset ≤ second.offset := by
  obtain ⟨between, rfl⟩ := h
  rw [Position.advance_offset]
  exact Nat.le_add_right _ _

/-- A scan covers its source with units, one after the other: single blanks, comments, and the texts
of tokens and diagnostics. A number out of range is the only unit with both a token and a
diagnostic. -/
theorem tokenize_units (source file : String) :
    (Cursor.start source file).scan? = some (tokenize source file) ∧
      ∃ units : List (List Char), units.flatten = source.toList ∧
        (units.foldl Cursor.advanceOver (Cursor.start source file)).position.offset =
          source.utf8ByteSize ∧
        (∀ before text after, units = before ++ text :: after →
          text ≠ [] ∧
            ∃! role, Role.Holds (tokenize source file) before.flatten text after.flatten role) ∧
        (∀ token ∈ (tokenize source file).tokens, ∃ before text after,
          units = before ++ text :: after ∧ token.span.Covers before.flatten text) ∧
        (∀ diagnostic ∈ (tokenize source file).diagnostics, ¬ diagnostic.IsOverflow →
          ∃ before text after,
            units = before ++ text :: after ∧ diagnostic.span.Covers before.flatten text) ∧
        (∀ diagnostic ∈ (tokenize source file).diagnostics, diagnostic.IsOverflow →
          ∃ token ∈ (tokenize source file).tokens, token.kind = .intLiteral ∧
            diagnostic.cause = .integerOverflow token.lexeme ∧ diagnostic.span = token.span) ∧
        (tokenize source file).tokens.Pairwise (fun first second ↦
          first.span.stop.offset ≤ second.span.start.offset) ∧
        (tokenize source file).diagnostics.Pairwise (fun first second ↦
          first.span.stop.offset ≤ second.span.start.offset) := by
  refine ⟨scan_start source file, unitsOf source, units_of_flatten source, ?_,
    fun _ _ _ ↦ units_of_role, fun token htoken ↦ ?_, fun diagnostic hdiagnostic _ ↦ ?_,
    fun _ ↦ overflow_token, tokens_pairwise.imp offset_le_of_advance,
    diagnostics_pairwise.imp offset_le_of_advance⟩
  · rw [foldl_advance_over, units_of_flatten, Position.advance_offset, byte_length_to_list]
    exact Nat.zero_add _
  · obtain ⟨before, segment, after, hsplit, hheld⟩ := mem_tokens.mp htoken
    rw [token_span hheld]
    exact units_of_covered hsplit
  · obtain ⟨before, segment, after, hsplit, hheld⟩ := mem_diagnostics.mp hdiagnostic
    rw [diagnostic_span hheld]
    exact units_of_covered hsplit

end Decaf
