import Decaf.Proofs.Scanner.Forms
import Decaf.Proofs.Scanner.Places
import Mathlib.Data.List.DropRight

/-!
# Positions agree with a recount

A scan keeps line and column while it reads. `Position.Recounted` counts them from the source
alone: the newlines before the offset, and the characters behind the last of them.
`recounted_advance` shows that reading from the start keeps the count, and so both ends of every
token and every diagnostic agree with it (`tokenize_positions`). A token stays within its line,
which makes its columns those of its characters.
-/

namespace Decaf

/-- A position counts what stands before it in a source: its line the newlines, and its column the
characters behind the last of them. -/
def Position.Recounted (source : List Char) (position : Position) : Prop :=
  ∃ before after, source = before ++ after ∧ position.offset = byteLength before ∧
    position.line = 1 + before.count '\n' ∧
    position.column = 1 + (before.rtakeWhile (· ≠ '\n')).length

/-- Reading from the start counts the characters behind the last newline. -/
theorem advance_start_column (text : List Char) :
    (Position.start.advance text).column = 1 + (text.rtakeWhile (· ≠ '\n')).length := by
  induction text using List.reverseRecOn with
  | nil => rfl
  | append_singleton text c ih =>
      rw [Position.advance_append, Position.advance_cons, Position.advance_nil, Position.past]
      split
      · next hnewline =>
        rw [List.rtakeWhile_concat_neg _ _ _ (by simpa using hnewline)]
        rfl
      · next hother =>
        rw [List.rtakeWhile_concat_pos _ _ _ (by simpa using hother), List.length_append, ih]
        rfl

/-- Reading a part of the source from the start keeps the count. -/
theorem recounted_advance (before after : List Char) :
    (Position.start.advance before).Recounted (before ++ after) := by
  refine ⟨before, after, rfl, ?_, ?_, advance_start_column before⟩
  · rw [Position.advance_offset]
    exact Nat.zero_add _
  · rw [Position.advance_line]
    rfl

section

variable {source file : String} {before after : List Segment} {segment : Segment}

/-- Both ends of a placed segment agree with a recount. -/
theorem placed_recounted (hsplit : segments source.toList = before ++ segment :: after) :
    (Placed.span file ⟨placeBehind before, segment⟩).start.Recounted source.toList ∧
      (Placed.span file ⟨placeBehind before, segment⟩).stop.Recounted source.toList := by
  have hsource := text_of_split hsplit
  constructor
  · rw [hsource]
    exact recounted_advance _ _
  · rw [hsource, ← List.append_assoc]
    show ((Position.start.advance _).advance _).Recounted _
    rw [← Position.advance_append]
    exact recounted_advance _ _

/-- A token has the text of its segment, which is not empty and holds no newline. -/
theorem token_text {token : Token} (hsplit : segments source.toList = before ++ segment :: after)
    (hheld : Placed.token? file ⟨placeBehind before, segment⟩ = some token) :
    token.lexeme.toList = segment.text ∧ segment.text ≠ [] ∧ '\n' ∉ segment.text := by
  obtain ⟨meaning, hmeaning, rfl⟩ := token_eq_some.mp hheld
  exact ⟨String.toList_ofList, segments_text_ne_nil hsplit,
    (segments_longest hsplit).no_newline (meaning_iff_role.mp ⟨meaning, hmeaning⟩)⟩

/-- A token stays within its line, and its columns count its characters. -/
theorem token_columns {token : Token} (h : token ∈ (tokenize source file).tokens) :
    '\n' ∉ token.lexeme.toList ∧ token.span.stop.line = token.span.start.line ∧
      token.lastColumn + 1 = token.firstColumn + token.lexeme.length := by
  obtain ⟨before, segment, after, hsplit, hheld⟩ := mem_tokens.mp h
  obtain ⟨htext, hne, hnewline⟩ := token_text hsplit hheld
  have hstop : token.span.stop = token.span.start.advance segment.text := by
    rw [token_span hheld]
    rfl
  refine ⟨by rwa [htext], ?_, ?_⟩
  · rw [hstop, Position.advance_line, List.count_eq_zero.mpr hnewline, Nat.add_zero]
  · have hcolumn := Position.advance_column token.span.start segment.text hnewline
    have hpos := List.length_pos_iff.mpr hne
    rw [← String.length_toList, htext, Token.lastColumn, Token.firstColumn, hstop, hcolumn]
    omega

end

/-- The positions of tokens and diagnostics agree with a recount from the source. A token spans no
newline, so that it ends in its line and its columns count its characters, and the lines of tokens
never decrease. -/
theorem tokenize_positions (source file : String) :
    (∀ token ∈ (tokenize source file).tokens,
        token.span.start.Recounted source.toList ∧ token.span.stop.Recounted source.toList) ∧
      (∀ diagnostic ∈ (tokenize source file).diagnostics,
        diagnostic.span.start.Recounted source.toList ∧
          diagnostic.span.stop.Recounted source.toList) ∧
      (∀ token ∈ (tokenize source file).tokens,
        '\n' ∉ token.lexeme.toList ∧ token.span.stop.line = token.span.start.line ∧
          token.lastColumn + 1 = token.firstColumn + token.lexeme.length) ∧
      (tokenize source file).tokens.Pairwise (fun first second ↦ first.line ≤ second.line) := by
  refine ⟨fun token htoken ↦ ?_, fun diagnostic hdiagnostic ↦ ?_, fun _ ↦ token_columns,
    tokens_pairwise.imp_of_mem ?_⟩
  · obtain ⟨before, segment, after, hsplit, hheld⟩ := mem_tokens.mp htoken
    rw [token_span hheld]
    exact placed_recounted hsplit
  · obtain ⟨before, segment, after, hsplit, hheld⟩ := mem_diagnostics.mp hdiagnostic
    rw [diagnostic_span hheld]
    exact placed_recounted hsplit
  · rintro first second hfirst - ⟨between, hreach⟩
    rw [Token.line, Token.line, hreach, Position.advance_line, (token_columns hfirst).2.1]
    exact Nat.le_add_right _ _

end Decaf
