import Decaf.Proofs.Recognizer.Operands

/-!
# Functions without parameters

The way from the start of a parse to the body of a function, and from the body to the end of the
parse. A derivation for the statements of the body decides how the parse ends: `parse_of_clears`
accepts the function, with a bound on the depth of every state, and `parse_of_exceeds` says where
the limit on nesting stops it.
-/

namespace Decaf

/-- The kinds in front of the body of a function without parameters that returns nothing. -/
def functionStart : List TokenKind :=
  [.voidType, .identifier, .openParen, .closeParen, .openCurly]

section

variable {levels : Nat} {kind : TokenKind} {kinds body left : List TokenKind}
  {asked : List TokenKind → Prop}

/-! ## From a declaration to a body -/

/-- A statement that no rule is for gives way to an expression. -/
theorem move_statement_expression (h : statementRule? kind = none) :
    Tables.standard.move kind .statementBody = .expand [.expression, .expect .semicolon] := by
  rw [standard_eq]
  simp only [Tables.move, h]

/-- A statement gives way to the rule for the kind that starts it. -/
theorem move_statement_rule {rule : Rule} (h : statementRule? kind = some rule) :
    Tables.standard.move kind .statementBody = .expand [.rule rule] := by
  rw [standard_eq]
  simp only [Tables.move, h]

/-- A declaration gives way to the statements of the body of a function, in front of which it opens
no level. -/
theorem function_opens (ahead : List TokenKind) :
    Relation.ReflTransGen Shift ([.rule .declaration], functionStart ++ ahead)
      ([.statements, .expect .closeCurly], ahead) := by
  -- The type and its suffixes, the name, the parentheses with no parameters, and the block.
  refine .head (.expand rfl) (.head (.expand rfl) (.head (.expand rfl) (.head (.expand rfl)
    (.head (.take rfl (by decide)) (.head (.expand rfl) ?_)))))
  refine .head (.take rfl (by decide)) (.head (.expand rfl) ?_)
  refine .head (.take rfl (by decide)) (.head (.expand rfl) (.head (.take rfl (by decide)) ?_))
  exact .head (.expand rfl) (.head (.take rfl (by decide)) .refl)

/-- An expression in front of a semicolon is a statement, one level deeper. -/
theorem expression_statement_yields (hkind : kind ∈ operandStarts)
    (h : Yields levels [.expression] [] (Stops .lowest) (kind :: kinds)) :
    Yields (levels + 1) [.rule .statement] [] (fun _ ↦ True)
      (kind :: (kinds ++ [TokenKind.semicolon])) := by
  have hstart : ∀ kind ∈ operandStarts, statementRule? kind = none ∧ kind ≠ .endOfInput := by
    decide
  obtain ⟨hrule, hend⟩ := hstart kind hkind
  have hsemicolon : Yields levels [.expect .semicolon] [] (fun _ ↦ True) [.semicolon] :=
    .token (by decide) .nil
  have hgoals := Yields.cons h hsemicolon fun after _ ↦ ⟨.semicolon, after, rfl, by decide⟩
  exact .nest rfl hend (.expand (move_statement_expression hrule) hgoals)

/-- A single expression is the body of a function, one level deeper. -/
theorem expression_body_clears (hkind : kind ∈ operandStarts)
    (h : Yields levels [.expression] [] (Stops .lowest) (kind :: kinds)) :
    Clears (levels + 1) [.statements, .expect .closeCurly]
      (((kind :: kinds) ++ [TokenKind.semicolon, .closeCurly]) ++ [TokenKind.endOfInput])
      [.endOfInput] := by
  have hclose : kind ≠ .closeCurly := by
    rintro rfl
    exact absurd hkind (by decide)
  have hend : Clears (levels + 1) [.statements, .expect .closeCurly] [.closeCurly, .endOfInput]
      [.endOfInput] := .shift (.expand rfl) (.shift (.take rfl (by decide)) .done)
  have hstatement := expression_statement_yields hkind h (Nat.le_refl _) trivial hend
  have hsame : (kind :: kinds ++ [TokenKind.semicolon, .closeCurly]) ++ [TokenKind.endOfInput] =
      kind :: (kinds ++ [TokenKind.semicolon]) ++ [TokenKind.closeCurly, .endOfInput] := by simp
  rw [hsame]
  exact .shift (.expand (if_neg hclose)) hstatement

end

/-! ## How a parse ends -/

namespace Recognizer

variable {recognizer next start : Recognizer}

/-- In front of the end of input there is no declaration. -/
theorem not_has_tokens (h : recognizer.kind = .endOfInput) : ¬ recognizer.hasTokens = true := by
  simp [hasTokens, h]

/-- A single declaration leads from where it starts to where it ends, and no further. -/
theorem declares_single (hrun : recognizer.recognize [.rule .declaration] = (next, .accepted ()))
    (hend : next.kind = .endOfInput) (h : Relation.ReflTransGen Declares recognizer start) :
    start = recognizer ∨ start = next := by
  rcases Relation.ReflTransGen.cases_head h with heq | ⟨middle, ⟨-, hmiddle⟩, hrest⟩
  · exact Or.inl heq.symm
  · obtain rfl : next = middle := congrArg Prod.fst (hrun.symm.trans hmiddle)
    rcases Relation.ReflTransGen.cases_head hrest with heq | ⟨_, ⟨hmore, -⟩, -⟩
    · exact Or.inr heq.symm
    · exact absurd hmore (not_has_tokens hend)

end Recognizer

section

open Recognizer

variable {tokens : List Token} {file : String} {levels : Nat} {body left : List TokenKind}

/-- A parse fails for the limit on nesting, at the token with the given index. -/
def FailsDeep (tokens : List Token) (file : String) (index : Nat) : Prop :=
  (parse tokens file).1.index = index ∧ ∃ token, tokens[index]? = some token ∧
    (parse tokens file).2 =
      .rejected ⟨.unexpectedToken token.lexeme (some "nesting too deep"), token.span⟩

/-- A parse that is rejected for the limit on nesting fails at its current token, unless that is the
end of input. -/
theorem fails_deep_of_rejected
    (h : (parse tokens file).2 =
      .rejected ((parse tokens file).1.unexpected (some "nesting too deep")))
    (hkind : (parse tokens file).1.kind ≠ .endOfInput) :
    FailsDeep tokens file (parse tokens file).1.index := by
  have hcurrent := tokens_index (parse tokens file).1
  rw [parse_tokens] at hcurrent
  refine ⟨rfl, (parse tokens file).1.current, ?_, ?_⟩
  · by_cases hlast : (parse tokens file).1.index < tokens.length
    · rwa [List.getElem?_append_left hlast] at hcurrent
    · rw [List.getElem?_append_right (Nat.le_of_not_lt hlast)] at hcurrent
      have hend := List.mem_singleton.mp (List.mem_of_getElem? hcurrent)
      have hkinds : (parse tokens file).1.kind = (endToken tokens file).kind :=
        congrArg Token.kind hend
      exact absurd hkinds hkind
  · rw [h, unexpected, if_neg hkind]

/-- A parse starts in front of the kinds of its tokens and the end of input. -/
theorem faces_ready (hkinds : tokens.map Token.kind = functionStart ++ body) (file : String) :
    Faces (ready tokens file) (functionStart ++ (body ++ [TokenKind.endOfInput])) :=
  ⟨tables_ready tokens file, ends_input_ready tokens file,
    by rw [ahead_ready, hkinds, List.append_assoc]⟩

/-- A function whose body is worked off within the limit on nesting is accepted as the only
declaration, and no state of the parse is deeper than the levels of its body. -/
theorem parse_of_clears (hkinds : tokens.map Token.kind = functionStart ++ body)
    (h : Clears levels [.statements, .expect .closeCurly] (body ++ [TokenKind.endOfInput])
      [.endOfInput])
    (hlevels : levels ≤ nestingLimit) (file : String) :
    (parse tokens file).2 = .accepted 1 ∧
      ∀ state, Visits (ready tokens file) state → state.depth ≤ levels := by
  have hfaces := faces_ready hkinds file
  have hdepth := depth_ready tokens file
  obtain ⟨next, seen, hrun, hpasses, hleft, hnext, hturns⟩ :=
    recognize_of_clears (Clears.shifts (function_opens _) h) hfaces (guarded_declaration _)
      (by rwa [hdepth])
  have hkind : (ready tokens file).kind ≠ .endOfInput := by
    rw [hfaces.kind]
    decide
  have hend : next.kind = .endOfInput := (hfaces.passes hpasses hleft).kind
  rw [hdepth] at hnext hturns
  rw [Nat.zero_add] at hturns
  constructor
  · show ((ready tokens file).declarations 0).2 = _
    rw [declarations_of_accepted hfaces.tables hfaces.ends_input hkind hrun,
      declarations_of_end _ hend]
  · intro state hvisits
    cases hvisits with
    | between h =>
        rcases declares_single hrun hend h with rfl | rfl
        · rw [hdepth]
          exact Nat.zero_le _
        · rw [hnext]
          exact Nat.zero_le _
    | within h hmore hstate =>
        rcases declares_single hrun hend h with rfl | rfl
        · exact hturns _ _ hstate
        · exact absurd hmore (not_has_tokens hend)

/-- A function whose body goes beyond the limit on nesting behind some kinds is rejected for this,
at the token behind them. -/
theorem parse_of_exceeds {seen : List TokenKind}
    (hkinds : tokens.map Token.kind = functionStart ++ body)
    (hbody : body ++ [TokenKind.endOfInput] = seen ++ left)
    (h : Exceeds nestingLimit [.statements, .expect .closeCurly] (seen ++ left) left)
    (file : String) : FailsDeep tokens file (functionStart.length + seen.length) := by
  have hfaces := faces_ready hkinds file
  rw [hbody] at hfaces
  obtain ⟨next, passed, hrun, hpasses, hleft, hnext⟩ :=
    recognize_of_exceeds (Exceeds.shifts (function_opens _) h) hfaces (guarded_declaration _)
      (by rw [depth_ready]; rfl)
  have hkind : (ready tokens file).kind ≠ .endOfInput := by
    rw [hfaces.kind]
    decide
  have hparse : parse tokens file =
      (next, .rejected (next.unexpected (some "nesting too deep"))) :=
    declarations_of_rejected hkind hrun 0
  have hpassed : passed = functionStart ++ seen := by
    have hahead := hpasses.ahead
    rw [hfaces.ahead, hleft, ← List.append_assoc] at hahead
    exact (List.append_cancel_right hahead).symm
  have hindex : (parse tokens file).1.index = functionStart.length + seen.length := by
    rw [hparse, hpasses.index_ready, hpassed, List.length_append]
  rw [← hindex]
  exact fails_deep_of_rejected (by rw [hparse]) (by rwa [hparse])

end

end Decaf
