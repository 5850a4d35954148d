import Decaf.Diagnostic.Excerpt
import Decaf.Proofs.Recognizer.Reasons
import Decaf.Proofs.Scanner.Faults
import Decaf.Proofs.Scanner.Recount

/-!
# Head lines and summaries stay within a line

The head of a report gives the name of a cause and, except at the end of input, a hint. A hint
quotes source text: a character in an escaped form, a number, or the text of a token. None of these
breaks the line (`one_line_title`), because numbers and tokens hold no newline and reasons fit. A
summary puts all source text between quotes, where nothing breaks a line (`one_line_summary`).
-/

namespace Decaf

/-- The errors that are reported on a source text: the diagnostics of its scan, and the syntax error
of its tokens. -/
def Diagnostic.Reported (source file : String) (error : Diagnostic) : Prop :=
  error ∈ (tokenize source file).diagnostics ∨
    (parse (tokenize source file).tokens file).2 = .rejected error

/-- The head line of a report, without its newline. -/
def Diagnostic.title (diagnostic : Diagnostic) : String :=
  match diagnostic.cause.tip? with
  | some tip => "Error: " ++ diagnostic.cause.name ++ " (" ++ tip ++ ")"
  | none => "Error: " ++ diagnostic.cause.name

/-- A head line is the title with a newline. -/
theorem headline_eq (diagnostic : Diagnostic) : diagnostic.headline = diagnostic.title ++ "\n" := by
  unfold Diagnostic.headline Diagnostic.title
  cases diagnostic.cause.tip? with
  | none => rfl
  | some tip =>
      have hclose : ")\n" = ")" ++ "\n" := by decide
      simp only [hclose, String.append_assoc]

/-- There is a hint for everything but the end of input. -/
theorem tip_eq_none_iff {cause : Cause} : cause.tip? = none ↔ cause = .unexpectedEndOfInput := by
  cases cause with
  | unexpectedToken lexeme reason => cases reason <;> simp [Cause.tip?]
  | _ => simp [Cause.tip?]

/-! ## Texts in head lines -/

/-- The source text that a cause quotes as it stands, and its reason, do not break a line. -/
def Cause.FitsLine : Cause → Prop
  | .integerOverflow literal => OneLine literal
  | .unexpectedToken lexeme reason => OneLine lexeme ∧ Decaf.FitsLine reason
  | .illegalCharacter _ | .unterminatedString _ | .unterminatedComment | .unexpectedEndOfInput =>
    True

/-- No digit of a number is a newline. -/
theorem newline_not_mem_digits {base : Nat} (hbase : 1 < base) (n : Nat) :
    '\n' ∉ Nat.toDigits base n := by
  have hdigit (value : Nat) : '\n' ≠ value.digitChar := (Nat.digitChar_ne '\n' rfl).symm
  induction n using Nat.strong_induction_on with
  | _ n ih =>
      rw [Nat.toDigits_eq_if hbase]
      split
      · exact List.not_mem_cons_of_ne_of_not_mem (hdigit n) List.not_mem_nil
      · next hlarge =>
        intro hmem
        rcases List.mem_append.mp hmem with hmem | hmem
        · exact ih _ (Nat.div_lt_self (by omega) hbase) hmem
        · exact hdigit _ (List.mem_singleton.mp hmem)

/-- A number is written in one line. -/
theorem one_line_number (n : Nat) : OneLine (toString n) := by
  rw [OneLine, Nat.toString_eq_ofList_toDigits, String.toList_ofList]
  exact newline_not_mem_digits (by decide) n

/-- The escape of a character by its code point does not break a line. -/
theorem newline_not_mem_escape (c : Char) : '\n' ∉ codePointEscape c := by
  intro hmem
  rcases List.mem_append.mp hmem with hmem | hmem
  · rcases List.mem_append.mp hmem with hmem | hmem
    · exact absurd hmem (by decide)
    · exact newline_not_mem_digits (by decide) c.toNat hmem
  · exact absurd hmem (by decide)

/-- A character in its escaped form does not break a line. -/
theorem one_line_escape (c : Char) : OneLine (asciiEscape c) := by
  by_cases hnewline : c = '\n'
  · subst hnewline
    decide
  unfold asciiEscape
  iterate 5
    split
    · decide
  split
  · exact one_line_of_list (List.not_mem_cons_of_ne_of_not_mem (Ne.symm hnewline) List.not_mem_nil)
  · exact one_line_of_list (newline_not_mem_escape c)

/-- The name of a cause does not break a line. -/
theorem one_line_name (cause : Cause) : OneLine cause.name := by
  unfold Cause.name
  split <;> decide

/-- A hint does not break a line if the source text in it does not. -/
theorem one_line_tip {cause : Cause} {tip : String} (h : cause.FitsLine)
    (htip : cause.tip? = some tip) : OneLine tip := by
  cases cause with
  | illegalCharacter c =>
      cases htip
      exact ((OneLine.append (by decide) (one_line_escape c)).append (by decide))
  | unterminatedString literal =>
      cases htip
      decide
  | unterminatedComment =>
      cases htip
      decide
  | integerOverflow literal =>
      cases htip
      exact ((OneLine.append (by decide) h).append (by decide))
  | unexpectedToken lexeme reason =>
      cases reason with
      | none =>
          cases htip
          exact ((OneLine.append (by decide) h.1).append (by decide))
      | some reason =>
          cases htip
          exact ((OneLine.append (by decide) h.1).append (by decide)).append
            (fits_line_some.mp h.2)
  | unexpectedEndOfInput => cases htip

/-- A title does not break a line if the source text in its hint does not. -/
theorem one_line_title {diagnostic : Diagnostic} (h : diagnostic.cause.FitsLine) :
    OneLine diagnostic.title := by
  have hname : OneLine ("Error: " ++ diagnostic.cause.name) :=
    OneLine.append (by decide) (one_line_name diagnostic.cause)
  unfold Diagnostic.title
  split
  · next tip htip =>
    exact ((hname.append (by decide)).append (one_line_tip h htip)).append (by decide)
  · exact hname

/-! ## Summaries -/

/-- No character breaks a line between quotes. -/
theorem newline_not_mem_quoted {quote : Char} (hquote : quote ≠ '\n') (c : Char) :
    '\n' ∉ quoted quote c := by
  unfold quoted
  iterate 5
    split
    · decide
  split
  · simpa using hquote.symm
  split
  · exact newline_not_mem_escape c
  · next hnewline _ _ _ => simpa using Ne.symm hnewline

/-- A character between quotes does not break a line. -/
theorem one_line_quote_char (c : Char) : OneLine (quoteChar c) := by
  refine one_line_of_list ?_
  simpa using newline_not_mem_quoted (by decide) c

/-- A text between quotes does not break a line, whatever is in it. -/
theorem one_line_quote_text (text : String) : OneLine (quoteText text) := by
  refine one_line_of_list ?_
  simpa using fun c _ ↦ newline_not_mem_quoted (by decide) c

/-- The message of a cause does not break a line: all source text in it is quoted. -/
theorem one_line_message (cause : Cause) : OneLine cause.message := by
  cases cause with
  | illegalCharacter c => exact OneLine.append (by decide) (one_line_quote_char c)
  | unterminatedString literal => exact OneLine.append (by decide) (one_line_quote_text literal)
  | integerOverflow literal => exact OneLine.append (by decide) (one_line_quote_text literal)
  | unterminatedComment | unexpectedEndOfInput => decide
  | unexpectedToken lexeme reason =>
      cases reason with
      | none => exact OneLine.append (by decide) (one_line_quote_text lexeme)
      | some reason =>
          have hreason : OneLine ("unexpected token (" ++ quoteText reason) :=
            OneLine.append (by decide) (one_line_quote_text reason)
          exact (hreason.append (by decide)).append (one_line_quote_text lexeme)

/-- A diagnostic is summed up in one line, whatever source text it concerns. -/
theorem one_line_summary {diagnostic : Diagnostic} (hfile : OneLine diagnostic.span.file) :
    OneLine diagnostic.summary := by
  have hcolon : OneLine ":" := by decide
  have hplace : OneLine (diagnostic.span.file ++ ":" ++ toString diagnostic.position.line ++ ":" ++
      toString diagnostic.position.column ++ ": ") :=
    ((((hfile.append hcolon).append (one_line_number _)).append hcolon).append
      (one_line_number _)).append (by decide)
  exact hplace.append (one_line_message diagnostic.cause)

/-! ## Causes of errors -/

section

variable {source file : String} {error : Diagnostic}

/-- The source text in a diagnostic of a scan does not break a line. -/
theorem diagnostic_fits_line (h : error ∈ (tokenize source file).diagnostics) :
    error.cause.FitsLine := by
  obtain ⟨before, segment, after, hsplit, hheld⟩ := mem_diagnostics.mp h
  obtain ⟨cause, hcause, rfl⟩ := diagnostic_eq_some.mp hheld
  cases justified_of_longest (segments_longest hsplit) hcause with
  | integerOverflow hdigits =>
      refine one_line_of_list fun hmem ↦ ?_
      cases hdigits.2 _ hmem
  | _ => trivial

/-- The token text in a syntax error does not break a line. -/
theorem syntax_error_fits_line
    (h : (parse (tokenize source file).tokens file).2 = .rejected error) :
    error.cause.FitsLine := by
  obtain ⟨reason, hreason, rfl⟩ := parse_reason h
  have hmem := Recognizer.current_mem (parse (tokenize source file).tokens file).1
  rw [parse_tokens, List.mem_append, List.mem_singleton] at hmem
  unfold Recognizer.unexpected
  split
  · trivial
  · next hkind =>
    rcases hmem with hmem | hmem
    · exact ⟨(token_columns hmem).1, hreason⟩
    · exact absurd (congrArg Token.kind hmem) hkind

/-- The title of an error of a source is one line. -/
theorem reported_title (h : error.Reported source file) : OneLine error.title := by
  rcases h with hscanned | hparsed
  · exact one_line_title (diagnostic_fits_line hscanned)
  · exact one_line_title (syntax_error_fits_line hparsed)

end

end Decaf
