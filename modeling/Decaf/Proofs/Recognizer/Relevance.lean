import Decaf.Proofs.Recognizer.Locality
import Decaf.Scanner.Scan

/-!
# What a parse depends on

A declaration is closed: when it is accepted, its last token has been taken and the token behind it
not looked at. Declarations that follow each other are therefore as local as one alone
(`declarations_local`), and a parse depends on the kinds of the tokens up to where it stops, that
one included, and on nothing else (`parse_relevance`): neither on what the tokens say and where they
stand, nor on anything behind the stop. An end of input that stands among the tokens is such a stop.
-/

namespace Decaf

namespace Recognizer

variable {recognizer next other : Recognizer}

/-! ## Declarations -/

/-- A declaration ends with a token. -/
theorem closed_declaration : IsClosed [.rule .declaration] := by
  simp [IsClosed, Goal.takesLast]

/-- A declaration is recognized the same way from every place in front of the same kinds, up to
where it stops, or up to its last token if it is accepted. -/
theorem declaration_local (htables : recognizer.tables = .standard)
    (hends : recognizer.EndsInput) :
    ∃ seen, Passes recognizer (recognizer.recognize [.rule .declaration]).1 seen ∧
      ((recognizer.recognize [.rule .declaration]).2 = .accepted () → seen ≠ []) ∧
      ∀ other, Beside recognizer other →
        Suffices [.rule .declaration] (recognizer.recognize [.rule .declaration]) seen
            other.ahead →
          SameWay seen (recognizer.recognize [.rule .declaration]) other
            (other.recognize [.rule .declaration]) := by
  obtain ⟨seen, hpasses, hseen, hsame⟩ :=
    run_local (recognizer.patience [.rule .declaration]) htables hends (guarded_declaration _)
  refine ⟨seen, hpasses, hseen closed_declaration (by simp), fun other hbeside hsuffices ↦ ?_⟩
  have hway := hsame other hbeside hsuffices
  -- The other recognizer may be granted other moves, but neither run needs them all.
  have hother : other.recognize [.rule .declaration] =
      run (recognizer.patience [.rule .declaration]) other [.rule .declaration] := by
    refine run_unique ?_ (hway.alike.ne_stalled ?_)
    · exact recognize_ne_stalled (hbeside.tables.trans htables) hbeside.ends_input
        (guarded_declaration _)
    · exact recognize_ne_stalled htables hends (guarded_declaration _)
  rw [hother]
  exact hway

/-- A declaration never stalls. -/
theorem recognize_declaration_ne_stalled (htables : recognizer.tables = .standard)
    (hends : recognizer.EndsInput) :
    recognizer.recognize [.rule .declaration] ≠ (next, .stalled) := by
  intro hrun
  have hstalled := recognize_ne_stalled htables hends (guarded_declaration recognizer.kind)
  rw [hrun] at hstalled
  exact hstalled rfl

/-- In front of the end of input there are no declarations. -/
theorem declarations_of_end (count : Nat) (hkind : recognizer.kind = .endOfInput) :
    recognizer.declarations count = (recognizer, .accepted count) := by
  rw [declarations, if_neg (by simp [hasTokens, hkind])]

/-- Behind a declaration that is accepted the others follow. -/
theorem declarations_of_accepted (htables : recognizer.tables = .standard)
    (hends : recognizer.EndsInput) (hkind : recognizer.kind ≠ .endOfInput)
    (h : recognizer.recognize [.rule .declaration] = (next, .accepted ())) (count : Nat) :
    recognizer.declarations count = next.declarations (count + 1) := by
  rw [declarations, if_pos (by simpa [hasTokens] using hkind), h]
  exact dif_pos (recognize_declaration_shortens htables hends h)

/-- Behind a declaration that is rejected nothing follows. -/
theorem declarations_of_rejected {error : Diagnostic} (hkind : recognizer.kind ≠ .endOfInput)
    (h : recognizer.recognize [.rule .declaration] = (next, .rejected error)) (count : Nat) :
    recognizer.declarations count = (next, .rejected error) := by
  rw [declarations, if_pos (by simpa [hasTokens] using hkind), h]

/-- The kinds of an accepted declaration are passed from every place in front of them, whatever
comes next, and the other declarations follow. -/
theorem accepted_declaration_local (htables : recognizer.tables = .standard)
    (hends : recognizer.EndsInput)
    (h : recognizer.recognize [.rule .declaration] = (next, .accepted ())) :
    ∃ seen, Passes recognizer next seen ∧
      ∀ other, Beside recognizer other → seen <+: other.ahead →
        ∃ otherNext, Passes other otherNext seen ∧ Beside next otherNext ∧
          ∀ count, other.declarations count = otherNext.declarations (count + 1) := by
  obtain ⟨seen, hpasses, hseen, hsame⟩ := declaration_local htables hends
  rw [h] at hpasses hseen hsame
  refine ⟨seen, hpasses, fun other hbeside hother ↦ ?_⟩
  obtain ⟨hpassed, hdepth, halike⟩ :=
    hsame other hbeside (Or.inr ⟨closed_declaration, rfl, hother⟩)
  have hotherTables := hbeside.tables.trans htables
  have hotherKind : other.kind ≠ .endOfInput := by
    obtain ⟨kind, later, rfl⟩ := List.exists_cons_of_ne_nil (hseen rfl)
    rw [ahead_eq, List.cons_prefix_cons] at hother
    rw [← hother.1]
    exact fun hkind ↦ hpasses.no_end (hkind ▸ List.mem_cons_self)
  refine ⟨_, hpassed, ⟨?_, hdepth, hpassed.ends_input hbeside.ends_input⟩,
    declarations_of_accepted hotherTables hbeside.ends_input hotherKind
      (Prod.ext rfl (halike.accepted rfl))⟩
  rw [hpassed.tables, hotherTables, hpasses.tables, htables]

/-- Declarations are recognized the same way from every place in front of the same kinds, up to
where they stop. -/
theorem declarations_local (htables : recognizer.tables = .standard)
    (hends : recognizer.EndsInput) (count : Nat) :
    ∃ seen, Passes recognizer (recognizer.declarations count).1 seen ∧
      ∀ other, Beside recognizer other →
        seen ++ [(recognizer.declarations count).1.kind] <+: other.ahead →
          SameWay seen (recognizer.declarations count) other (other.declarations count) := by
  fun_induction declarations recognizer count with
  | case1 recognizer count hmore next hrun hshort ih =>
      obtain ⟨first, hfirst, hsame⟩ := accepted_declaration_local htables hends hrun
      obtain ⟨later, hlater, hfollow⟩ :=
        ih (hfirst.tables.trans htables) (hfirst.ends_input hends)
      refine ⟨first ++ later, hfirst.trans hlater, fun other hbeside hother ↦ ?_⟩
      rw [List.append_assoc] at hother
      obtain ⟨otherNext, hpassed, hbesideNext, hcounts⟩ :=
        hsame other hbeside ((List.prefix_append first _).trans hother)
      rw [hpassed.ahead, List.prefix_append_right_inj] at hother
      obtain ⟨hpasses, hdepth, halike⟩ := hfollow otherNext hbesideNext hother
      rw [hcounts]
      exact ⟨hpassed.trans hpasses, hdepth, halike⟩
  | case2 recognizer count hmore next hrun hlong =>
      exact absurd (recognize_declaration_shortens htables hends hrun) hlong
  | case3 recognizer count hmore next error hrun =>
      have hkind : recognizer.kind ≠ .endOfInput := by simpa [hasTokens] using hmore
      obtain ⟨seen, hpasses, -, hsame⟩ := declaration_local htables hends
      rw [hrun] at hpasses hsame
      refine ⟨seen, hpasses, fun other hbeside hother ↦ ?_⟩
      have hotherKind : other.kind ≠ .endOfInput := by
        rwa [kind_eq_of_shared (by simp) hpasses.starts hother]
      have hway := hsame other hbeside (Or.inl hother)
      obtain ⟨reason, herror, hrejected⟩ := hway.alike.rejected rfl
      rw [declarations_of_rejected hotherKind (Prod.ext rfl hrejected)]
      exact ⟨hway.passes, hway.depth, reason, herror, rfl⟩
  | case4 recognizer count hmore next hrun =>
      exact absurd hrun (recognize_declaration_ne_stalled htables hends)
  | case5 recognizer count hnone =>
      have hkind : recognizer.kind = .endOfInput := by simpa [hasTokens] using hnone
      refine ⟨[], Passes.refl recognizer, fun other hbeside hother ↦ ?_⟩
      have hotherKind : other.kind = recognizer.kind :=
        kind_eq_of_shared (by simp) (Passes.refl recognizer).starts hother
      rw [declarations_of_end count (hotherKind.trans hkind)]
      exact ⟨Passes.refl other, hbeside.depth, rfl⟩

/-- Declarations with the standard tables never stall. -/
theorem declarations_ne_stalled (htables : recognizer.tables = .standard)
    (hends : recognizer.EndsInput) (count : Nat) :
    (recognizer.declarations count).2 ≠ .stalled := by
  fun_induction declarations recognizer count with
  | case1 recognizer count hmore next hrun hshort ih =>
      obtain ⟨seen, hpasses, -⟩ := declaration_local htables hends
      rw [hrun] at hpasses
      exact ih (hpasses.tables.trans htables) (hpasses.ends_input hends)
  | case2 recognizer count hmore next hrun hlong =>
      exact absurd (recognize_declaration_shortens htables hends hrun) hlong
  | case3 recognizer count hmore next error hrun => simp
  | case4 recognizer count hmore next hrun =>
      exact absurd hrun (recognize_declaration_ne_stalled htables hends)
  | case5 recognizer count hnone => simp

/-- A parse has the tables of Decaf. -/
theorem tables_ready (tokens : List Token) (file : String) :
    (ready tokens file).tables = .standard :=
  rfl

/-- The input of a parse ends. -/
theorem ends_input_ready (tokens : List Token) (file : String) :
    (ready tokens file).EndsInput := by
  rw [EndsInput, ahead_ready, List.getLast?_concat]

/-- A parse starts outside all constructs. -/
theorem depth_ready (tokens : List Token) (file : String) : (ready tokens file).depth = 0 := by
  cases tokens <;> rfl

/-- All parses start beside each other. -/
theorem beside_ready (first second : List Token) (file other : String) :
    Beside (ready first file) (ready second other) where
  tables := rfl
  depth := by rw [depth_ready, depth_ready]
  ends_input := ends_input_ready second other

/-- A parse has come as far as the kinds it has passed. -/
theorem Passes.index_ready {tokens : List Token} {file : String} {seen : List TokenKind}
    (h : Passes (ready tokens file) next seen) : next.index = seen.length := by
  rw [h.index, Decaf.index_ready, Nat.zero_add]

end Recognizer

/-! ## Verdicts that match -/

/-- Two syntax errors say the same, each about its own token. -/
def Cause.Matches : Cause → Cause → Prop
  | .unexpectedToken _ reason, .unexpectedToken _ other => other = reason
  | .unexpectedEndOfInput, .unexpectedEndOfInput => True
  | _, _ => False

/-- Two verdicts give the same result, or errors that say the same. -/
def Verdict.Matches {α : Type} : Verdict α → Verdict α → Prop
  | .accepted result, .accepted other => other = result
  | .rejected error, .rejected other => error.cause.Matches other.cause
  | _, _ => False

/-- A verdict that matches an accepted one is accepted. -/
theorem Verdict.Matches.accepted {α : Type} {first second : Verdict α} {result : α}
    (h : first.Matches second) (hfirst : first = .accepted result) : second = .accepted result := by
  subst hfirst
  cases second with
  | accepted other => exact congrArg Verdict.accepted h
  | rejected error => exact h.elim
  | stalled => exact h.elim

/-- Errors for the same reason say the same about tokens of the same kind. -/
theorem Recognizer.unexpected_matches {recognizer other : Recognizer}
    (hkind : other.kind = recognizer.kind) (reason : Option String) :
    (recognizer.unexpected reason).cause.Matches (other.unexpected reason).cause := by
  unfold Recognizer.unexpected
  rw [hkind]
  split
  · trivial
  · rfl

/-- Runs that end alike in front of the same kind without stalling have verdicts that match. -/
theorem Recognizer.Alike.matches {α : Type} {first second : Recognizer × Verdict α}
    (h : Alike first second) (hkind : second.1.kind = first.1.kind) (hfirst : first.2 ≠ .stalled) :
    first.2.Matches second.2 := by
  cases hverdict : first.2 with
  | accepted result =>
      rw [h.accepted hverdict]
      rfl
  | rejected error =>
      obtain ⟨reason, rfl, hsecond⟩ := h.rejected hverdict
      rw [hsecond]
      exact unexpected_matches hkind reason
  | stalled => exact absurd hverdict hfirst

/-! ## Parses -/

/-- The kinds of tokens and of the end of input behind them. -/
def kindsToEnd (tokens : List Token) : List TokenKind :=
  tokens.map Token.kind ++ [.endOfInput]

/-- Where a parse stops, it has passed the kinds up to there, and none of them ends the input. -/
theorem parse_passes (tokens : List Token) (file : String) :
    ∃ seen, Recognizer.Passes (.ready tokens file) (parse tokens file).1 seen ∧
      seen.length = (parse tokens file).1.index ∧
      ∀ other, Recognizer.Beside (.ready tokens file) other →
        (kindsToEnd tokens).take ((parse tokens file).1.index + 1) <+: other.ahead →
          Recognizer.SameWay seen (parse tokens file) other (other.declarations 0) ∧
            (other.declarations 0).1.kind = (parse tokens file).1.kind := by
  obtain ⟨seen, hpasses, hsame⟩ :=
    Recognizer.declarations_local (Recognizer.tables_ready tokens file)
      (Recognizer.ends_input_ready tokens file) 0
  have hindex : (parse tokens file).1.index = seen.length := hpasses.index_ready
  refine ⟨seen, hpasses, hindex.symm, fun other hbeside hother ↦ ?_⟩
  have htake : seen ++ [(parse tokens file).1.kind] =
      (kindsToEnd tokens).take ((parse tokens file).1.index + 1) := by
    have hprefix := hpasses.starts
    rw [ahead_ready] at hprefix
    have heq := List.prefix_iff_eq_take.mp hprefix
    rwa [List.length_append, List.length_singleton, ← hindex] at heq
  rw [← htake] at hother
  have hway := hsame other hbeside hother
  refine ⟨hway, ?_⟩
  rw [hway.passes.ahead, List.prefix_append_right_inj] at hother
  rw [Recognizer.ahead_eq, List.cons_prefix_cons] at hother
  exact hother.1.symm

/-- Parses of tokens of the same kinds, up to where one of them stops, stop there both, and their
verdicts match. -/
theorem parse_matches {first second : List Token} {file : String}
    (h : (kindsToEnd first).take ((parse first file).1.index + 1) =
      (kindsToEnd second).take ((parse first file).1.index + 1)) (other : String) :
    (parse second other).1.index = (parse first file).1.index ∧
      (parse first file).2.Matches (parse second other).2 := by
  obtain ⟨seen, -, hlength, hsame⟩ := parse_passes first file
  have hprefix : (kindsToEnd first).take ((parse first file).1.index + 1) <+:
      (Recognizer.ready second other).ahead := by
    rw [h, ahead_ready]
    exact List.take_prefix _ _
  obtain ⟨hway, hkind⟩ := hsame _ (Recognizer.beside_ready first second file other) hprefix
  refine ⟨?_, hway.alike.matches hkind ?_⟩
  · rw [← hlength]
    exact hway.passes.index_ready
  · exact Recognizer.declarations_ne_stalled (Recognizer.tables_ready first file)
      (Recognizer.ends_input_ready first file) 0

/-- A parse stops at the end of input at the latest, and does not pass a token that ends the
input. -/
theorem parse_index (tokens : List Token) (file : String) :
    (parse tokens file).1.index ≤ tokens.length ∧
      ∀ token ∈ tokens.take (parse tokens file).1.index, token.kind ≠ .endOfInput := by
  obtain ⟨seen, hpasses, hlength, -⟩ := parse_passes tokens file
  have hahead := hpasses.ahead
  rw [ahead_ready] at hahead
  have hle : (parse tokens file).1.index ≤ tokens.length := by
    have hlengths := congrArg List.length hahead
    simp only [Recognizer.ahead_eq, List.length_append, List.length_cons, List.length_map,
      List.length_nil, hlength] at hlengths
    omega
  refine ⟨hle, fun token htoken hkind ↦ hpasses.no_end ?_⟩
  have htake : (tokens.take (parse tokens file).1.index).map Token.kind = seen := by
    have heq := congrArg (List.take seen.length) hahead
    rw [List.take_left, hlength, List.take_append_of_le_length (by rwa [List.length_map])] at heq
    rw [List.map_take, heq]
  rw [← htake, ← hkind]
  exact List.mem_map_of_mem htoken

/-- A parse depends on the kinds of the tokens up to where it stops, and on nothing else: with the
same kinds there, any other tokens of any other file are parsed up to the same place, to the same
number of declarations or an error that says the same. A parse never passes a token that ends the
input, so what stands behind one among the tokens might as well not be there. -/
theorem parse_relevance :
    (∀ first second file other,
        (kindsToEnd first).take ((parse first file).1.index + 1) =
            (kindsToEnd second).take ((parse first file).1.index + 1) →
          (parse second other).1.index = (parse first file).1.index ∧
            (parse first file).2.Matches (parse second other).2) ∧
      (∀ tokens file, (parse tokens file).1.index ≤ tokens.length ∧
        ∀ token ∈ tokens.take (parse tokens file).1.index, token.kind ≠ .endOfInput) ∧
      ∀ front ending rest file other, ending.kind = .endOfInput →
        (parse (front ++ ending :: rest) other).1.index = (parse front file).1.index ∧
          (parse front file).2.Matches (parse (front ++ ending :: rest) other).2 := by
  refine ⟨fun first second file other h ↦ parse_matches h other, parse_index,
    fun front ending rest file other hending ↦ parse_matches ?_ other⟩
  -- The kinds in front are the same, and the end of input stands behind them both times.
  have hle := (parse_index front file).1
  have hsplit : kindsToEnd (front ++ ending :: rest) = kindsToEnd front ++ kindsToEnd rest := by
    simp [kindsToEnd, hending]
  rw [hsplit, List.take_append_of_le_length]
  simp only [kindsToEnd, List.length_append, List.length_map, List.length_singleton]
  omega

/-- A name with a closing parenthesis behind it is rejected at the parenthesis whatever the name is
and whatever comes next, and one declaration is accepted in front of an end of input whatever stands
behind that. -/
theorem parse_relevance_renamed :
    (parse (tokenize "int count ) + 1" "g").tokens "g").1.index = 2 ∧
      (parse ([.intType, .identifier, .closeParen].map bareToken) "").2.Matches
        (parse (tokenize "int count ) + 1" "g").tokens "g").2 ∧
      (parse ([.intType, .identifier, .semicolon].map bareToken ++ bareToken .endOfInput ::
        [bareToken .plus]) "").2 = .accepted 1 := by
  obtain ⟨hsame, -, hrest⟩ := parse_relevance
  have hindex : (parse ([.intType, .identifier, .closeParen].map bareToken) "").1.index = 2 := by
    decide +kernel
  have haccepted : (parse ([.intType, .identifier, .semicolon].map bareToken) "").2 =
      .accepted 1 := by
    decide +kernel
  have hkinds : (kindsToEnd ([.intType, .identifier, .closeParen].map bareToken)).take 3 =
      (kindsToEnd (tokenize "int count ) + 1" "g").tokens).take 3 := by
    decide +kernel
  obtain ⟨hplace, hverdict⟩ := hsame _ (tokenize "int count ) + 1" "g").tokens "" "g" (by
    rwa [hindex])
  obtain ⟨-, hmatches⟩ := hrest _ (bareToken .endOfInput) [bareToken .plus] "" "" rfl
  exact ⟨hplace.trans hindex, hverdict, hmatches.accepted haccepted⟩

end Decaf
