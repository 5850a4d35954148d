import Decaf.Proofs.Recognizer.Acceptance
import Decaf.Proofs.Recognizer.Course
import Decaf.Proofs.Scanner.Tokens
import Decaf.Proofs.Scanner.Units
import Decaf.Recognizer.Session

/-!
# Errors are about the current token

`Diagnostic.Blames` says what it means that a syntax error is about a token: it has the token's span
and text, and is the end of input exactly where the token is. Every error of a recognizer is built
from its current token (`unexpected_blames`), and no rule moves on between building an error and
answering with it, whatever the tables hold (`run_rejected`). `errors_blame_current` says so of
whole programs and of single rules of a session, and leads errors in scanned tokens back to the
source.
-/

namespace Decaf

/-- A syntax error is about a token. -/
structure Diagnostic.Blames (error : Diagnostic) (token : Token) : Prop where
  span : error.span = token.span
  ends : error.cause = .unexpectedEndOfInput ↔ token.kind = .endOfInput
  lexeme : token.kind ≠ .endOfInput → ∃ reason, error.cause = .unexpectedToken token.lexeme reason
  syntactic : error.cause.isLexical = false

namespace Recognizer

variable {recognizer next : Recognizer} {error : Diagnostic}

/-- What is unexpected is the current token. -/
theorem unexpected_blames (recognizer : Recognizer) (reason : Option String) :
    (recognizer.unexpected reason).Blames recognizer.current := by
  unfold unexpected
  split
  · next hkind => exact ⟨rfl, iff_of_true rfl hkind, fun hother ↦ absurd hkind hother, rfl⟩
  · next hkind => exact ⟨rfl, iff_of_false nofun hkind, fun _ ↦ ⟨reason, rfl⟩, rfl⟩

/-- A run that rejects blames the token at which it stopped. -/
theorem recognize_blames {agenda : List Goal}
    (h : recognizer.recognize agenda = (next, .rejected error)) : error.Blames next.current := by
  obtain ⟨reason, rfl⟩ := run_rejected h
  exact next.unexpected_blames reason

/-- What an action leads to some levels deeper it has led to from some recognizer, and coming up
keeps the current token. -/
theorem nested_ok {α : Type} {action : Recognizer → Recognizer × α} {levels : Nat} {answer : α}
    (h : nested action levels recognizer = (next, .ok answer)) :
    ∃ inner, (action inner).1.current = next.current ∧ (action inner).2 = answer := by
  induction levels generalizing recognizer next with
  | zero =>
      obtain ⟨rfl, hanswer⟩ := Prod.mk.inj h
      exact ⟨recognizer, rfl, Except.ok.inj hanswer⟩
  | succ levels ih =>
      rw [nested] at h
      split at h
      · obtain ⟨rfl, hanswer⟩ := Prod.mk.inj h
        obtain ⟨inner, hcurrent, hinner⟩ := ih (Prod.ext rfl hanswer)
        exact ⟨inner, hcurrent, hinner⟩
      · cases (Prod.mk.inj h).2

end Recognizer

/-- The verdict that an answer gives, at whatever level the rule was run. -/
def Answer.verdict? : Answer → Option (Verdict Unit)
  | .verdict found => some found
  | .nested (some inner) _ => inner.verdict?
  | _ => none

namespace Recognizer

/-- A rule that is run in a session and rejects blames the token at which the session then
stands. -/
theorem perform_blames {step : Step} {recognizer : Recognizer} {error : Diagnostic}
    (h : (recognizer.perform step).2.verdict? = some (.rejected error)) :
    error.Blames (recognizer.perform step).1.current := by
  induction step generalizing recognizer with
  | rule rule => exact recognize_blames (Prod.ext rfl (Option.some.inj h))
  | graded rule power => exact recognize_blames (Prod.ext rfl (Option.some.inj h))
  | nested levels inner ih =>
      rw [perform] at h ⊢
      split at h
      · next next answer hnested =>
        obtain ⟨found, hcurrent, rfl⟩ := nested_ok hnested
        rw [← hcurrent]
        exact ih h
      · cases h
  | _ => cases h

end Recognizer

/-! ## Scanned tokens -/

/-- A token stands within its source. -/
theorem token_within {source file : String} {token : Token}
    (h : token ∈ (tokenize source file).tokens) :
    token.span.start.offset ≤ source.utf8ByteSize ∧
      token.span.stop.offset ≤ source.utf8ByteSize := by
  obtain ⟨before, segment, after, hsplit, -, -, -, hspan⟩ := token_found h
  have hbytes := congrArg byteLength (text_of_split hsplit)
  rw [byte_length_to_list, byte_length_append, byte_length_append] at hbytes
  rw [hspan, placed_covers.1, placed_covers.2]
  omega

/-- The end of input stands within the source. -/
theorem end_token_le (source file : String) :
    (Recognizer.endToken (tokenize source file).tokens file).span.start.offset ≤
      source.utf8ByteSize := by
  unfold Recognizer.endToken
  cases hlast : (tokenize source file).tokens.getLast? with
  | none => exact Nat.zero_le _
  | some last => exact (token_within (List.mem_of_getLast? hlast)).2

/-- Every error of a recognizer is about its current token: in whole programs, which are accepted
up to an end of input only, and in every rule that a session runs, from any state and with any
tables. With the tokens of a source, the error stands at the start of one of them, or at the end of
the input, and never past the end of the source. -/
theorem errors_blame_current :
    (∀ tokens file error, (parse tokens file).2 = .rejected error →
        error.Blames (parse tokens file).1.current) ∧
      (∀ tokens file count, (parse tokens file).2 = .accepted count →
        (parse tokens file).1.kind = .endOfInput) ∧
      (∀ (recognizer : Recognizer) step error,
        (recognizer.perform step).2.verdict? = some (.rejected error) →
          error.Blames (recognizer.perform step).1.current) ∧
      ∀ source file error, (parse (tokenize source file).tokens file).2 = .rejected error →
        error.position.offset ≤ source.utf8ByteSize ∧
          (error.cause ≠ .unexpectedEndOfInput →
            ∃ token ∈ (tokenize source file).tokens, error.position = token.span.start) := by
  have hblames (tokens file error) (h : (parse tokens file).2 = .rejected error) :
      error.Blames (parse tokens file).1.current := by
    obtain ⟨reason, rfl⟩ := Recognizer.declarations_rejected (Prod.ext rfl h)
    exact Recognizer.unexpected_blames _ reason
  refine ⟨hblames, fun tokens file count h ↦ Recognizer.declarations_accepted (Prod.ext rfl h),
    fun recognizer step error ↦ Recognizer.perform_blames, fun source file error h ↦ ?_⟩
  have herror := hblames _ _ _ h
  have hmem := Recognizer.current_mem (parse (tokenize source file).tokens file).1
  rw [parse_tokens, List.mem_append, List.mem_singleton] at hmem
  rw [Diagnostic.position, herror.span]
  rcases hmem with hmem | hmem
  · exact ⟨(token_within hmem).1, fun _ ↦ ⟨_, hmem, rfl⟩⟩
  · refine ⟨?_, fun hcause ↦ ?_⟩
    · rw [hmem]
      exact end_token_le source file
    · exact absurd (herror.ends.mpr (by rw [hmem]; rfl)) hcause

/-- A parenthesis where a declaration has to end, and with empty tables a semicolon where a signed
operand has to go on, two levels down. -/
theorem errors_blame_current_misplaced :
    (∃ error, (parse (tokenize "int x )" "f").tokens "f").2 = .rejected error ∧
        error.Blames (parse (tokenize "int x )" "f").tokens "f").1.current ∧
        error.position.offset ≤ "int x )".utf8ByteSize) ∧
      (parse (tokenize "int x ;" "f").tokens "f").1.kind = .endOfInput ∧
      ∃ error, ((Recognizer.start (tokenize "-;" "f").tokens "f").perform
          (.nested 2 (.rule .signed))).2.verdict? = some (.rejected error) ∧
        error.Blames ((Recognizer.start (tokenize "-;" "f").tokens "f").perform
          (.nested 2 (.rule .signed))).1.current := by
  obtain ⟨hblames, hends, hsession, hsource⟩ := errors_blame_current
  have hparen : (parse (tokenize "int x )" "f").tokens "f").2 =
      .rejected ⟨.unexpectedToken ")" (some "expected ';'"), "f", ⟨6, 1, 7⟩, ⟨7, 1, 8⟩⟩ := by
    decide +kernel
  have haccepted : (parse (tokenize "int x ;" "f").tokens "f").2 = .accepted 1 := by
    decide +kernel
  have hsigned : ((Recognizer.start (tokenize "-;" "f").tokens "f").perform
      (.nested 2 (.rule .signed))).2.verdict? = some (.rejected
        ⟨.unexpectedToken ";" (some "expected an expression"), "f", ⟨1, 1, 2⟩, ⟨2, 1, 3⟩⟩) := by
    decide +kernel
  exact ⟨⟨_, hparen, hblames _ _ _ hparen, (hsource _ _ _ hparen).1⟩, hends _ _ _ haccepted,
    _, hsigned, hsession _ _ _ hsigned⟩

end Decaf
