import Decaf.Proofs.Recognizer.Programs

/-!
# What is accepted

The recognizer against the grammar. `parse_exact` says that the accepted lists of tokens are the
programs, with the number of their declarations, up to the limit on nesting. `parse_error_earliest`
says that a syntax error comes at the first token with which no program goes on.
-/

namespace Decaf

open Computability

/-- Some program starts with the given kinds. -/
def StartsProgram (kinds : List TokenKind) : Prop :=
  ∃ more count, IsProgram count (kinds ++ more)

/-- The recognizer that a parse starts with. -/
def Recognizer.ready (tokens : List Token) (file : String) : Recognizer :=
  { Recognizer.start tokens file with tables := .standard }

/-- A parse starts in front of all tokens and the end of input. -/
theorem ahead_ready (tokens : List Token) (file : String) :
    (Recognizer.ready tokens file).ahead = tokens.map Token.kind ++ [.endOfInput] :=
  Recognizer.ahead_start tokens file

/-- A parse starts in front of all tokens. -/
theorem index_ready (tokens : List Token) (file : String) :
    (Recognizer.ready tokens file).index = 0 := by
  cases tokens <;> rfl

/-- A token of a kind, without text. -/
def bareToken (kind : TokenKind) : Token where
  kind := kind
  lexeme := ""
  value := .none
  span := .point "" .start

/-- The kinds of tokens without text are the given ones. -/
theorem map_bare_token (kinds : List TokenKind) :
    (kinds.map bareToken).map Token.kind = kinds := by
  rw [List.map_map]
  exact List.map_id kinds

section

variable {tokens : List Token} {file : String}

/-- The tokens of a file end once. -/
theorem ends_once_ready (hkinds : ∀ token ∈ tokens, token.kind ≠ .endOfInput) :
    (Recognizer.ready tokens file).EndsOnce := by
  refine ⟨tokens.map Token.kind, ahead_ready tokens file, fun hmem ↦ ?_⟩
  obtain ⟨token, htoken, hkind⟩ := List.mem_map.mp hmem
  exact hkinds token htoken hkind

/-- What is known where a parse ends. -/
theorem parse_counts (file : String) (hkinds : ∀ token ∈ tokens, token.kind ≠ .endOfInput) :
    Recognizer.Counts (Recognizer.ready tokens file) (parse tokens file).1 0
      (parse tokens file).2 :=
  Recognizer.declarations_exact rfl (ends_once_ready hkinds) 0

/-- The tokens of a file are a program with some number of declarations when the words in front of
the end of input are. -/
theorem ready_mem_program_of (file : String) {count : Nat} :
    (Recognizer.ready tokens file).ahead ∈ programOf count ↔
      IsProgram count (tokens.map Token.kind) := by
  rw [ahead_ready, append_end_mem_program_of]

/-- The recognizer accepts exactly the programs, with the number of their declarations, except that
a program may be nested too deeply. Expressions are chains of operands, and an `else` may belong to
either of two statements. -/
theorem parse_exact (hkinds : ∀ token ∈ tokens, token.kind ≠ .endOfInput) :
    (∀ count, (parse tokens file).2 = .accepted count →
        IsProgram count (tokens.map Token.kind)) ∧
      (∀ count, IsProgram count (tokens.map Token.kind) →
        (parse tokens file).2 = .accepted count ∨
          ∃ error lexeme, (parse tokens file).2 = .rejected error ∧
            error.cause = .unexpectedToken lexeme (some "nesting too deep")) ∧
      words [.phrase .expression] = signedOperand * (oneOf binaryOperators * signedOperand)∗ ∧
      words (conditional (conditional alternatives)) ≤ words (conditional [.phrase .statement]) ∧
      words (conditional (conditional alternatives)) ≤ words (conditional alternatives) := by
  have hcounts := parse_counts file hkinds
  refine ⟨fun count hparse ↦ ?_, fun count hprogram ↦ ?_, words_expression, inner_else,
    outer_else⟩
  · rw [hparse] at hcounts
    obtain ⟨found, rfl, hfound⟩ := hcounts
    rw [Nat.zero_add]
    exact (ready_mem_program_of file).mp ((hfound found).mpr rfl)
  · rw [← ready_mem_program_of file] at hprogram
    cases hparse : (parse tokens file).2 with
    | accepted total =>
        rw [hparse] at hcounts
        obtain ⟨found, rfl, hfound⟩ := hcounts
        rw [(hfound count).mp hprogram, Nat.zero_add]
        exact Or.inl rfl
    | rejected error =>
        rw [hparse] at hcounts
        obtain ⟨reason, rfl, ⟨hkind, rfl⟩ | ⟨seen, hreads⟩⟩ := hcounts
        · refine Or.inr ⟨_, (parse tokens file).1.current.lexeme, rfl, ?_⟩
          rw [Recognizer.unexpected, if_neg hkind]
        -- No word goes on with the token that is blamed, but the program does.
        · have hword : (Recognizer.ready tokens file).ahead ∈ program := ⟨count, hprogram⟩
          rw [hreads.ahead] at hword
          exact absurd ((hreads.exact _).mp hword) (Language.notMem_zero _)
    | stalled =>
        rw [hparse] at hcounts
        exact hcounts.elim

/-- One function, whose body has an `else` behind two conditions. -/
def danglingElse : List TokenKind :=
  [.voidType, .identifier, .openParen, .closeParen, .openCurly, .ifWord, .openParen, .identifier,
    .closeParen, .ifWord, .openParen, .not, .identifier, .closeParen, .breakWord, .semicolon,
    .elseWord, .identifier, .assign, .minus, .intLiteral, .semicolon, .closeCurly]

/-- One function is accepted as one declaration, and so it is one. -/
theorem parse_exact_dangling_else :
    (parse (danglingElse.map bareToken) "").2 = .accepted 1 ∧ IsProgram 1 danglingElse := by
  have hkinds : ∀ token ∈ danglingElse.map bareToken, token.kind ≠ .endOfInput := by decide
  have haccepted : (parse (danglingElse.map bareToken) "").2 = .accepted 1 := by decide +kernel
  have hprogram := (parse_exact hkinds).1 1 haccepted
  rw [map_bare_token] at hprogram
  exact ⟨haccepted, hprogram⟩

/-- What has been seen of a word with the end of input behind it starts a program. -/
theorem starts_program_of_append_mem {seen more : List TokenKind} (hseen : .endOfInput ∉ seen)
    (h : seen ++ more ∈ program) : StartsProgram seen := by
  obtain ⟨count, kinds, heq, hprogram⟩ := mem_program.mp h
  rcases List.eq_nil_or_concat more with rfl | ⟨more, last, rfl⟩
  · rw [List.append_nil] at heq
    exact absurd (by simp [heq]) hseen
  · rw [List.concat_eq_append, ← List.append_assoc] at heq
    obtain ⟨rfl, -⟩ := List.append_inj' heq rfl
    exact ⟨more, count, hprogram⟩

/-- No program starts with kinds that no word goes on with. -/
theorem not_starts_program {kinds : List TokenKind} (h : ∀ more, kinds ++ more ∉ program) :
    ¬ StartsProgram kinds := by
  intro hstarts
  obtain ⟨more, count, hprogram⟩ := hstarts
  refine h (more ++ [.endOfInput]) (mem_program.mpr ⟨count, kinds ++ more, ?_, hprogram⟩)
  rw [List.append_assoc]

/-- What a parse has seen are the kinds of the tokens up to where it stands, and what is ahead are
the others and the end of input. -/
theorem reads_ready {whole rest : Language TokenKind} {next : Recognizer} {seen : List TokenKind}
    (hkinds : ∀ token ∈ tokens, token.kind ≠ .endOfInput)
    (h : Recognizer.Reads whole rest (Recognizer.ready tokens file) next seen) :
    next.index ≤ tokens.length ∧ (tokens.take next.index).map Token.kind = seen ∧
      (tokens.drop next.index).map Token.kind ++ [.endOfInput] = next.ahead := by
  obtain ⟨⟨left, hleft, -⟩, -⟩ := h.ends_once (ends_once_ready hkinds)
  have hindex : next.index = seen.length := by rw [h.index, index_ready, Nat.zero_add]
  have hall : tokens.map Token.kind = seen ++ left := by
    have hahead := h.ahead
    rw [ahead_ready, hleft, ← List.append_assoc] at hahead
    exact (List.append_inj' hahead rfl).1
  refine ⟨?_, ?_, ?_⟩
  · have hlength := congrArg List.length hall
    rw [List.length_map, List.length_append] at hlength
    omega
  · rw [List.map_take, hall, hindex, List.take_left]
  · rw [List.map_drop, hall, hindex, List.drop_left, hleft]

/-- A syntax error comes at the first token with which no program goes on. -/
theorem parse_error_earliest {error : Diagnostic}
    (hkinds : ∀ token ∈ tokens, token.kind ≠ .endOfInput)
    (hparse : (parse tokens file).2 = .rejected error)
    (hcause : ∀ lexeme, error.cause ≠ .unexpectedToken lexeme (some "nesting too deep")) :
    (parse tokens file).1.index ≤ tokens.length ∧
      StartsProgram ((tokens.take (parse tokens file).1.index).map Token.kind) ∧
      ((parse tokens file).1.index < tokens.length →
        ¬ StartsProgram ((tokens.take ((parse tokens file).1.index + 1)).map Token.kind)) ∧
      ((parse tokens file).1.index = tokens.length →
        error.cause = .unexpectedEndOfInput ∧
          ¬ ∃ count, IsProgram count (tokens.map Token.kind)) := by
  have hcounts := parse_counts file hkinds
  rw [hparse] at hcounts
  obtain ⟨reason, rfl, ⟨hkind, rfl⟩ | ⟨seen, hreads⟩⟩ := hcounts
  · rw [Recognizer.unexpected, if_neg hkind] at hcause
    exact absurd rfl (hcause _)
  obtain ⟨hindex, htake, hdrop⟩ := reads_ready hkinds hreads
  have hstuck (word : List TokenKind) : seen ++ (parse tokens file).1.kind :: word ∉ program :=
    fun hword ↦ Language.notMem_zero _ ((hreads.exact word).mp hword)
  have hend (heq : (parse tokens file).1.index = tokens.length) :
      (parse tokens file).1.kind = .endOfInput := by
    rw [heq, List.drop_length] at hdrop
    exact (List.cons.inj hdrop).1.symm
  refine ⟨hindex, ?_, fun hlt ↦ ?_, fun heq ↦ ⟨?_, ?_⟩⟩
  · obtain ⟨more, hmore⟩ := hreads.viable
    rw [htake]
    exact starts_program_of_append_mem (hreads.ends_once (ends_once_ready hkinds)).2 hmore
  · have hkind : (parse tokens file).1.kind = (tokens[(parse tokens file).1.index]).kind := by
      rw [List.drop_eq_getElem_cons hlt] at hdrop
      exact (List.cons.inj hdrop).1.symm
    rw [List.take_succ_eq_append_getElem hlt, List.map_append, htake, List.map_singleton, ← hkind]
    exact not_starts_program fun more ↦ by simpa using hstuck more
  · rw [Recognizer.unexpected, if_pos (hend heq)]
  · intro hcounted
    obtain ⟨count, hprogram⟩ := hcounted
    rw [heq, List.take_length] at htake
    refine hstuck [] (mem_program.mpr ⟨count, _, ?_, hprogram⟩)
    rw [htake, hend heq]

/-- A name with a closing parenthesis behind it is rejected at the parenthesis: a program starts
with what stands in front of it, and none with the parenthesis too. -/
theorem parse_error_earliest_paren :
    (parse ([.intType, .identifier, .closeParen].map bareToken) "").1.index = 2 ∧
      StartsProgram [.intType, .identifier] ∧
      ¬ StartsProgram [.intType, .identifier, .closeParen] := by
  have hindex : (parse ([.intType, .identifier, .closeParen].map bareToken) "").1.index = 2 := by
    decide +kernel
  have hparse : (parse ([.intType, .identifier, .closeParen].map bareToken) "").2 =
      .rejected ⟨.unexpectedToken "" (some "expected ';'"), .point "" .start⟩ := by decide +kernel
  obtain ⟨-, hstarts, hstuck, -⟩ := parse_error_earliest (by decide) hparse fun _ ↦ by simp
  rw [hindex] at hstarts hstuck
  exact ⟨hindex, hstarts, hstuck (by decide)⟩

end

end Decaf
