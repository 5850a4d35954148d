import Decaf.Grammar.Sentence
import Mathlib.Computability.Language
import Mathlib.Order.CompletePartialOrder

/-!
# The words of a sequence of symbols

The grammar as a family of languages: `words symbols` holds the kinds that derive from `symbols`.
Joining sequences multiplies their languages, and a phrase is the sum of its productions, so the
grammar can be reckoned with in the Kleene algebra of languages. `Derives.leader` bounds the kinds
that a word can start with. `phrase_choice` then picks the productions of a phrase by the kind that
its word starts with, which is what a recognizer has to do.
-/

namespace Decaf

/-- The language of a sequence of symbols. -/
def words (symbols : List Symbol) : Language TokenKind :=
  {kinds | Derives symbols kinds}

/-- The language of a single token of one of the given kinds. -/
def oneOf (kinds : List TokenKind) : Language TokenKind :=
  {word | ∃ kind ∈ kinds, word = [kind]}

/-- The words of a sequence are what derives from it. -/
theorem mem_words {symbols : List Symbol} {kinds : List TokenKind} :
    kinds ∈ words symbols ↔ Derives symbols kinds :=
  Iff.rfl

/-- The words of `oneOf` are single kinds. -/
theorem mem_one_of {choices word : List TokenKind} :
    word ∈ oneOf choices ↔ ∃ kind ∈ choices, word = [kind] :=
  Iff.rfl

/-- Nothing but the empty word derives from no symbols. -/
theorem words_nil : words [] = 1 := by
  ext kinds
  constructor
  · intro h
    cases mem_words.mp h
    exact Language.nil_mem_one
  · intro h
    rw [(Language.mem_one kinds).mp h]
    exact Derives.done

/-- The words of two sequences in a row are the words of the one followed by those of the other. -/
theorem words_append (first second : List Symbol) :
    words (first ++ second) = words first * words second := by
  ext kinds
  rw [Language.mem_mul]
  constructor
  · intro h
    obtain ⟨left, right, rfl, hleft, hright⟩ := Derives.split (mem_words.mp h)
    exact ⟨left, hleft, right, hright, rfl⟩
  · intro hword
    obtain ⟨left, hleft, right, hright, rfl⟩ := hword
    exact Derives.append hleft hright

/-- A sequence is read symbol by symbol. -/
theorem words_cons (symbol : Symbol) (rest : List Symbol) :
    words (symbol :: rest) = words [symbol] * words rest :=
  words_append [symbol] rest

/-- A token stands for its kind alone. -/
theorem words_token (kind : TokenKind) : words [.token kind] = oneOf [kind] := by
  ext kinds
  rw [mem_words, mem_one_of]
  constructor
  · intro h
    cases h with
    | token hrest =>
        cases hrest
        exact ⟨kind, by simp, rfl⟩
  · intro hword
    obtain ⟨found, hfound, rfl⟩ := hword
    rw [List.mem_singleton.mp hfound]
    exact .token .done

/-- A word of a phrase is a word of one of its productions. -/
theorem mem_words_phrase {category : Category} {kinds : List TokenKind} :
    kinds ∈ words [.phrase category] ↔ ∃ symbols ∈ productions category, kinds ∈ words symbols := by
  constructor
  · intro h
    cases mem_words.mp h with
    | phrase hmem hrest => exact ⟨_, hmem, by simpa [mem_words] using hrest⟩
  · intro hword
    obtain ⟨symbols, hmem, h⟩ := hword
    exact Derives.phrase hmem (by simpa [mem_words] using h)

/-- A word of a sum of languages is a word of one of them. -/
theorem mem_sum_words {sequences : List (List Symbol)} {kinds : List TokenKind} :
    kinds ∈ (sequences.map words).sum ↔ ∃ symbols ∈ sequences, kinds ∈ words symbols := by
  induction sequences with
  | nil => simp
  | cons symbols rest ih => simp [Language.mem_add, ih]

/-- A phrase is the sum of its productions. -/
theorem words_phrase (category : Category) :
    words [.phrase category] = ((productions category).map words).sum := by
  ext kinds
  rw [mem_words_phrase, mem_sum_words]

/-- The language of a phrase with one production is that of the production. -/
theorem words_phrase_single {category : Category} {symbols : List Symbol}
    (h : productions category = [symbols]) : words [.phrase category] = words symbols := by
  rw [words_phrase, h, List.map_cons, List.map_nil, List.sum_cons, List.sum_nil, add_zero]

/-- A word of a product starts in its first factor, unless that factor contributes nothing. -/
theorem cons_mem_mul {first second : Language TokenKind} {kind : TokenKind}
    {kinds : List TokenKind} :
    kind :: kinds ∈ first * second ↔
      (∃ left right, left ++ right = kinds ∧ kind :: left ∈ first ∧ right ∈ second) ∨
        [] ∈ first ∧ kind :: kinds ∈ second := by
  rw [Language.mem_mul]
  constructor
  · intro hword
    obtain ⟨left, hleft, right, hright, heq⟩ := hword
    cases left with
    | nil => exact Or.inr ⟨hleft, by simpa [← heq] using hright⟩
    | cons head left =>
        obtain ⟨rfl, htail⟩ := List.cons.inj heq
        exact Or.inl ⟨left, right, htail, hleft, hright⟩
  · rintro (⟨left, right, rfl, hleft, hright⟩ | ⟨hnil, hright⟩)
    · exact ⟨kind :: left, hleft, right, hright, rfl⟩
    · exact ⟨[], hnil, kind :: kinds, hright, rfl⟩

/-- A word that starts with a single kind goes on with a word of what follows. -/
theorem cons_mem_one_of_mul {choices : List TokenKind} {rest : Language TokenKind}
    {kind : TokenKind} {kinds : List TokenKind} :
    kind :: kinds ∈ oneOf choices * rest ↔ kind ∈ choices ∧ kinds ∈ rest := by
  rw [Language.mem_mul]
  constructor
  · intro hword
    obtain ⟨left, ⟨found, hfound, rfl⟩, right, hright, heq⟩ := hword
    obtain ⟨rfl, rfl⟩ := List.cons.inj heq
    exact ⟨hfound, hright⟩
  · intro hword
    obtain ⟨hkind, hrest⟩ := hword
    exact ⟨[kind], ⟨kind, hkind, rfl⟩, kinds, hrest, rfl⟩

/-! ## Leaders -/

/-- The tokens that can start a binary or a signed operand. -/
def operandStarts : List TokenKind :=
  .openParen :: (signOperators ++ atoms)

/-- The tokens that start one of the suffixes of an operand. -/
def suffixStarts : List TokenKind :=
  [.dot, .openParen, .openBracket]

/-- The tokens that start a statement which is neither a declaration nor an expression. -/
def statementStarts : List TokenKind :=
  [.openCurly, .ifWord, .whileWord, .forWord, .returnWord, .breakWord, .continueWord, .printWord]

namespace Category

/-- Whether the empty word derives from a category. -/
def isErasable : Category → Bool
  | .parameters | .moreParameters | .suffixes | .statements | .optionalExpression | .arguments
  | .moreArguments | .moreOperands | .postfixes => true
  | .declaration | .type | .block | .statement | .expression | .operand => false

/-- The kinds that the words of a category start with. -/
def leaders : Category → List TokenKind
  | .declaration | .parameters | .type => typeKeywords
  | .moreParameters | .moreArguments => [.comma]
  | .suffixes => [.openBracket]
  | .block => [.openCurly]
  | .statements | .statement => typeKeywords ++ (statementStarts ++ operandStarts)
  | .optionalExpression | .arguments | .expression | .operand => operandStarts
  | .moreOperands => binaryOperators
  | .postfixes => suffixStarts

end Category

/-- Whether the empty word derives from a sequence of symbols. -/
def isErasable : List Symbol → Bool
  | [] => true
  | .token _ :: _ => false
  | .phrase category :: rest => category.isErasable && isErasable rest

/-- The kinds that the words of a sequence of symbols start with. -/
def leaders : List Symbol → List TokenKind
  | [] => []
  | .token kind :: _ => [kind]
  | .phrase category :: rest =>
    category.leaders ++ if category.isErasable then leaders rest else []

/-- A joined sequence is erasable when both parts are. -/
theorem is_erasable_append (first second : List Symbol) :
    isErasable (first ++ second) = (isErasable first && isErasable second) := by
  induction first with
  | nil => rfl
  | cons symbol first ih =>
      cases symbol with
      | token kind => rfl
      | phrase category => simp [isErasable, ih, Bool.and_assoc]

/-- The leaders of a joined sequence are those of the first part, with those of the second when
the first can be skipped. -/
theorem mem_leaders_append {first second : List Symbol} {kind : TokenKind}
    (h : kind ∈ leaders (first ++ second)) :
    kind ∈ leaders first ∨ isErasable first = true ∧ kind ∈ leaders second := by
  induction first with
  | nil => exact Or.inr ⟨rfl, h⟩
  | cons symbol first ih =>
      cases symbol with
      | token found => exact Or.inl h
      | phrase category =>
          simp only [List.cons_append, leaders, List.mem_append] at h
          rcases h with h | h
          · exact Or.inl (by simp [leaders, h])
          · by_cases herase : category.isErasable
            · rw [if_pos herase] at h
              rcases ih h with h | ⟨hfirst, h⟩
              · exact Or.inl (by simp [leaders, herase, h])
              · exact Or.inr ⟨by simp [isErasable, herase, hfirst], h⟩
            · simp [herase] at h

/-- The leaders listed for a category cover those of its productions. -/
theorem leaders_of_production {category : Category} {symbols : List Symbol}
    (hmem : symbols ∈ productions category) :
    (∀ kind ∈ leaders symbols, kind ∈ category.leaders) ∧
      (isErasable symbols = true → category.isErasable = true) := by
  revert symbols
  cases category <;> decide

/-- Only an erasable sequence derives the empty word. -/
theorem Derives.erasable {symbols : List Symbol} (h : Derives symbols []) :
    isErasable symbols = true := by
  generalize hkinds : ([] : List TokenKind) = kinds at h
  induction h with
  | done => rfl
  | token _ _ => simp at hkinds
  | phrase hmem _ ih =>
      have hall := ih hkinds
      rw [is_erasable_append, Bool.and_eq_true] at hall
      simp [isErasable, (leaders_of_production hmem).2 hall.1, hall.2]

/-- A word starts with one of the leaders of its sequence. -/
theorem Derives.leader {symbols : List Symbol} {kind : TokenKind} {kinds : List TokenKind}
    (h : Derives symbols (kind :: kinds)) : kind ∈ leaders symbols := by
  generalize hword : kind :: kinds = word at h
  induction h with
  | done => simp at hword
  | token _ _ =>
      obtain ⟨rfl, rfl⟩ := List.cons.inj hword
      simp [leaders]
  | @phrase category _ rest _ hmem _ ih =>
      obtain ⟨hleaders, herase⟩ := leaders_of_production hmem
      rcases mem_leaders_append (ih hword) with hkind | ⟨hskip, hkind⟩
      · simp [leaders, hleaders kind hkind]
      · simp [leaders, herase hskip, hkind]

/-- The productions of a category whose words may start with a kind. -/
def choices (category : Category) (kind : TokenKind) : List (List Symbol) :=
  (productions category).filter fun symbols ↦ kind ∈ leaders symbols

/-- A word of a phrase is a word of a production that its first kind allows. -/
theorem phrase_choice {category : Category} {kind : TokenKind} {kinds : List TokenKind}
    (h : kind :: kinds ∈ words [.phrase category]) :
    kind :: kinds ∈ ((choices category kind).map words).sum := by
  obtain ⟨symbols, hmem, hword⟩ := mem_words_phrase.mp h
  refine mem_sum_words.mpr ⟨symbols, ?_, hword⟩
  exact List.mem_filter.mpr ⟨hmem, by simpa using Derives.leader hword⟩

/-- Each production is part of its phrase. -/
theorem words_le_phrase {category : Category} {symbols : List Symbol}
    (hmem : symbols ∈ productions category) : words symbols ≤ words [.phrase category] :=
  fun _ h ↦ mem_words_phrase.mpr ⟨symbols, hmem, h⟩

/-! ## The dangling else -/

/-- A statement behind the condition of an `if`. -/
def conditional (body : List Symbol) : List Symbol :=
  [.token .ifWord, .token .openParen, .phrase .expression, .token .closeParen] ++ body

/-- Two statements with an `else` between them. -/
def alternatives : List Symbol :=
  [.phrase .statement, .token .elseWord, .phrase .statement]

/-- More words behind a condition are more words with it. -/
theorem conditional_mono {first second : List Symbol} (h : words first ≤ words second) :
    words (conditional first) ≤ words (conditional second) := by
  unfold conditional
  rw [words_append, words_append _ second]
  exact mul_le_mul_right h _

/-- The `else` behind two conditions may belong to the second, inside a statement of its own. -/
theorem inner_else : words (conditional (conditional alternatives)) ≤
    words (conditional [.phrase .statement]) :=
  conditional_mono (words_le_phrase (by decide))

/-- The `else` behind two conditions may belong to the first, behind a statement without one. -/
theorem outer_else : words (conditional (conditional alternatives)) ≤
    words (conditional alternatives) := by
  have hstatement : words (conditional [.phrase .statement]) ≤ words [.phrase .statement] :=
    words_le_phrase (by decide)
  refine conditional_mono ?_
  calc words (conditional alternatives)
      = words (conditional [.phrase .statement]) *
          words [.token .elseWord, .phrase .statement] :=
        words_append (conditional [.phrase .statement]) [_, _]
    _ ≤ words [.phrase .statement] * words [.token .elseWord, .phrase .statement] :=
        mul_le_mul_left hstatement _
    _ = words alternatives := (words_append [_] [_, _]).symm

end Decaf
