import Decaf.Proofs.Recognizer.Relevance

/-!
# Programs in a row

Recognition turns the concatenation of tokens into the sum of declarations. Declarations that were
accepted in front of the end of input are passed in front of anything else too, since the last of
them has not looked further (`declarations_pass`). What follows is then recognized as it would be
alone, only at a later index and counted from a later start (`declarations_add`), and blames the
very same tokens. `parse_append` puts these together.
-/

namespace Decaf

/-- The verdict on declarations that come behind others. -/
def Verdict.behind (count : Nat) : Verdict Nat → Verdict Nat
  | .accepted more => .accepted (count + more)
  | .rejected error => .rejected error
  | .stalled => .stalled

namespace Recognizer

variable {recognizer next other : Recognizer}

/-- Where the count starts makes no difference but to the count. -/
theorem declarations_add (recognizer : Recognizer) (count more : Nat) :
    recognizer.declarations (count + more) =
      ((recognizer.declarations more).1, (recognizer.declarations more).2.behind count) := by
  fun_induction declarations recognizer more with
  | case1 recognizer more hmore next hrun hshort ih =>
      rw [declarations, if_pos hmore, hrun]
      simp only [dif_pos hshort]
      exact ih
  | case2 recognizer more hmore next hrun hlong =>
      rw [declarations, if_pos hmore, hrun]
      simp only [dif_neg hlong]
      rfl
  | case3 recognizer more hmore next error hrun =>
      rw [declarations, if_pos hmore, hrun]
      rfl
  | case4 recognizer more hmore next hrun =>
      rw [declarations, if_pos hmore, hrun]
      rfl
  | case5 recognizer more hnone =>
      rw [declarations, if_neg hnone]
      rfl

/-- Declarations that are accepted in front of the end of input are passed and counted in front of
anything else, and more declarations may follow them there. -/
theorem declarations_pass {count total : Nat} (htables : recognizer.tables = .standard)
    (hends : recognizer.EndsInput)
    (h : recognizer.declarations count = (next, .accepted total)) :
    ∃ seen, Passes recognizer next seen ∧
      ∀ other, Beside recognizer other → seen <+: other.ahead →
        ∃ otherNext, Passes other otherNext seen ∧ Beside next otherNext ∧
          other.declarations count = otherNext.declarations total := by
  fun_induction declarations recognizer count with
  | case1 recognizer count hmore middle hrun hshort ih =>
      obtain ⟨first, hfirst, hsame⟩ := accepted_declaration_local htables hends hrun
      obtain ⟨later, hlater, hfollow⟩ :=
        ih (hfirst.tables.trans htables) (hfirst.ends_input hends) h
      refine ⟨first ++ later, hfirst.trans hlater, fun other hbeside hother ↦ ?_⟩
      obtain ⟨otherMiddle, hpassed, hbesideMiddle, hcounts⟩ :=
        hsame other hbeside ((List.prefix_append first later).trans hother)
      rw [hpassed.ahead, List.prefix_append_right_inj] at hother
      obtain ⟨otherNext, hpasses, hbesideNext, hrest⟩ := hfollow otherMiddle hbesideMiddle hother
      exact ⟨otherNext, hpassed.trans hpasses, hbesideNext, (hcounts count).trans hrest⟩
  | case2 recognizer count hmore middle hrun hlong => cases h
  | case3 recognizer count hmore middle error hrun => cases h
  | case4 recognizer count hmore middle hrun => cases h
  | case5 recognizer count hnone =>
      cases h
      exact ⟨[], Passes.refl _, fun other hbeside _ ↦ ⟨other, Passes.refl other, hbeside, rfl⟩⟩

/-- Errors for the same reason are the same about the same token. -/
theorem unexpected_congr (h : other.current = recognizer.current) (reason : Option String) :
    other.unexpected reason = recognizer.unexpected reason := by
  unfold unexpected kind
  rw [h]

/-- Behind some tokens the input ends where it ends behind the last of them, whatever stands in
front of them. -/
theorem end_token_append (first : List Token) {second : List Token} (hne : second ≠ [])
    (file other : String) : endToken (first ++ second) file = endToken second other := by
  unfold endToken
  rw [List.getLast?_append_of_ne_nil first hne, List.getLast?_eq_some_getLast hne]

end Recognizer

section

variable {first second : List Token} {file other whole : String} {count : Nat}

/-- What an accepted parse has passed are the kinds of all its tokens, if none of them ends the
input. -/
theorem seen_of_accepted {next : Recognizer} {seen : List TokenKind}
    (hkinds : ∀ token ∈ first, token.kind ≠ .endOfInput)
    (h : Recognizer.Passes (.ready first file) next seen) (hend : next.kind = .endOfInput) :
    seen = first.map Token.kind := by
  have hahead := h.ahead
  rw [ahead_ready, Recognizer.ahead_eq, hend] at hahead
  have hkinds : .endOfInput ∉ first.map Token.kind := by
    intro hmem
    obtain ⟨token, htoken, hkind⟩ := List.mem_map.mp hmem
    exact hkinds token htoken hkind
  exact ((List.append_cons_inj_of_notMem hkinds List.not_mem_nil).mp hahead).1.symm

/-- Accepted tokens without an end of input among them are passed in front of any others. -/
theorem parse_pass (hkinds : ∀ token ∈ first, token.kind ≠ .endOfInput)
    (hfirst : (parse first file).2 = .accepted count) (second : List Token) (other whole : String) :
    ∃ next, Recognizer.Passes (.ready (first ++ second) whole) next (first.map Token.kind) ∧
      Recognizer.Beside (.ready second other) next ∧
        parse (first ++ second) whole = next.declarations count := by
  have haccepted : (Recognizer.ready first file).declarations 0 =
      ((parse first file).1, .accepted count) := Prod.ext rfl hfirst
  obtain ⟨seen, hpasses, hpass⟩ :=
    Recognizer.declarations_pass (Recognizer.tables_ready first file)
      (Recognizer.ends_input_ready first file) haccepted
  obtain rfl := seen_of_accepted hkinds hpasses (Recognizer.declarations_accepted haccepted)
  have hprefix : first.map Token.kind <+: (Recognizer.ready (first ++ second) whole).ahead := by
    rw [ahead_ready, List.map_append, List.append_assoc]
    exact List.prefix_append _ _
  obtain ⟨next, hpassed, hnext, hcounts⟩ :=
    hpass _ (Recognizer.beside_ready first (first ++ second) file whole) hprefix
  have hdepth : (parse first file).1.depth = 0 :=
    (Recognizer.declarations_depth _ 0).trans (Recognizer.depth_ready first file)
  refine ⟨next, hpassed, ⟨hpassed.tables, ?_, hnext.ends_input⟩, hcounts⟩
  rw [hnext.depth, hdepth, Recognizer.depth_ready]

/-- Nothing is rejected where there are no tokens. -/
theorem ne_nil_of_rejected {error : Diagnostic} (h : (parse second other).2 = .rejected error) :
    second ≠ [] := by
  rintro rfl
  have haccepted : parse [] other = (.ready [] other, .accepted 0) :=
    Recognizer.declarations_of_end 0 rfl
  rw [haccepted] at h
  cases h

/-- Parses that stop as far into the same tokens stop at the same one, and at the end of input in
the same place. -/
theorem current_append (hne : second ≠ [])
    (hindex : (parse (first ++ second) whole).1.index =
      first.length + (parse second other).1.index) :
    (parse (first ++ second) whole).1.current = (parse second other).1.current := by
  have hwhole := (parse (first ++ second) whole).1.tokens_index
  have hsecond := (parse second other).1.tokens_index
  rw [parse_tokens] at hwhole hsecond
  rw [hindex, List.append_assoc, List.getElem?_append_right (Nat.le_add_right _ _),
    Nat.add_sub_cancel_left, Recognizer.end_token_append first hne whole other, hsecond] at hwhole
  exact (Option.some.inj hwhole).symm

/-- Recognition of accepted tokens with others behind them is recognition of the others: what they
are accepted for is added to the count, and what they are rejected for is the very same error, with
its place. The recognizer stops as many tokens further on as there are in front. -/
theorem parse_append (hkinds : ∀ token ∈ first, token.kind ≠ .endOfInput)
    (hfirst : (parse first file).2 = .accepted count) :
    (parse (first ++ second) whole).1.index = first.length + (parse second other).1.index ∧
      (∀ more, (parse second other).2 = .accepted more →
        (parse (first ++ second) whole).2 = .accepted (count + more)) ∧
      ∀ error, (parse second other).2 = .rejected error →
        (parse (first ++ second) whole).2 = .rejected error := by
  obtain ⟨next, hpassed, hbeside, hparse⟩ := parse_pass hkinds hfirst second other whole
  obtain ⟨seen, -, hlength, hsame⟩ := parse_passes second other
  have hahead : next.ahead = kindsToEnd second := by
    have hahead := hpassed.ahead
    rw [ahead_ready, List.map_append, List.append_assoc, List.append_cancel_left_eq] at hahead
    exact hahead.symm
  obtain ⟨hway, -⟩ := hsame next hbeside (by
    rw [hahead]
    exact List.take_prefix _ _)
  have hsum : parse (first ++ second) whole =
      ((next.declarations 0).1, (next.declarations 0).2.behind count) := by
    rw [hparse, ← Recognizer.declarations_add, Nat.add_zero]
  have hindex : (parse (first ++ second) whole).1.index =
      first.length + (parse second other).1.index := by
    rw [hsum, hway.passes.index, hpassed.index_ready, List.length_map, hlength]
  refine ⟨hindex, fun more hmore ↦ ?_, fun error herror ↦ ?_⟩
  · rw [hsum, hway.alike.accepted hmore]
    rfl
  · have hcurrent := current_append (ne_nil_of_rejected herror) hindex
    obtain ⟨reason, rfl, hrejected⟩ := hway.alike.rejected herror
    rw [hsum] at hcurrent ⊢
    rw [hrejected, Recognizer.unexpected_congr hcurrent]
    rfl

/-- Behind a variable a function is the second declaration, and a misplaced parenthesis is blamed
where it stands in its own file. -/
theorem parse_append_variable :
    (parse ((tokenize "int x;" "f").tokens ++ (tokenize "void g() { }" "g").tokens) "").2 =
        .accepted 2 ∧
      (parse ((tokenize "int x;" "f").tokens ++ (tokenize "int )" "g").tokens) "").2 =
        .rejected ⟨.unexpectedToken ")" (some "expected identifier during declaration"),
          "g", ⟨4, 1, 5⟩, ⟨5, 1, 6⟩⟩ ∧
      (parse ((tokenize "int x;" "f").tokens ++ (tokenize "int )" "g").tokens) "").1.index = 4 := by
  have hkinds : ∀ token ∈ (tokenize "int x;" "f").tokens, token.kind ≠ .endOfInput := by
    decide +kernel
  have hfirst : (parse (tokenize "int x;" "f").tokens "f").2 = .accepted 1 := by decide +kernel
  have hfunction : (parse (tokenize "void g() { }" "g").tokens "g").2 = .accepted 1 := by
    decide +kernel
  have hparen : (parse (tokenize "int )" "g").tokens "g").2 =
      .rejected ⟨.unexpectedToken ")" (some "expected identifier during declaration"),
        "g", ⟨4, 1, 5⟩, ⟨5, 1, 6⟩⟩ := by
    decide +kernel
  have hindex : (parse (tokenize "int )" "g").tokens "g").1.index = 1 := by decide +kernel
  obtain ⟨-, hsum, -⟩ := parse_append hkinds hfirst
  obtain ⟨hplace, -, herror⟩ := parse_append hkinds hfirst
  exact ⟨hsum 1 hfunction, herror _ hparen, hplace.trans (by rw [hindex]; decide +kernel)⟩

end

end Decaf
