import Decaf.Proofs.Recognizer.Meaning

/-!
# What one token decides

The words of a product that start with a given token. A phrase that such a word starts with is one
of the few productions that the token can open, or is left out. `LedBy` bounds the first tokens of
what follows; behind it, the token alone says which. The other lemmas carry the demands of
`Goal.Fits` over to a product.
-/

namespace Decaf

/-! ## Words that start with a given token -/

section

variable {kind : TokenKind} {word : List TokenKind} {language : Language TokenKind}

/-- Any kind may stand in front. -/
theorem cons_mem_any_mul : kind :: word ∈ anyKind * language ↔ word ∈ language := by
  rw [anyKind, cons_mem_one_of_mul]
  exact and_iff_right (TokenKind.mem_all kind)

/-- A sequence of symbols is read from its first symbol on. -/
theorem words_cons_mul (symbol : Symbol) (rest : List Symbol) :
    words (symbol :: rest) * language = words [symbol] * (words rest * language) := by
  rw [words_cons, mul_assoc]

/-- A sequence of at least two symbols is its first symbol and a shorter sequence. -/
theorem words_cons_cons_mul (first second : Symbol) (rest : List Symbol) :
    words (first :: second :: rest) * language =
      words [first] * (words (second :: rest) * language) :=
  words_cons_mul first (second :: rest)

/-- No symbols leave what follows. -/
theorem words_nil_mul : words [] * language = language := by
  rw [words_nil, one_mul]

/-- A token of a sequence stands in front of the rest. -/
theorem cons_mem_token_mul {expected : TokenKind} {rest : List Symbol} :
    kind :: word ∈ words (.token expected :: rest) * language ↔
      kind = expected ∧ word ∈ words rest * language := by
  rw [words_cons_mul, words_token, cons_mem_one_of_mul, List.mem_singleton]

/-- A phrase in front is one of the productions that the first kind allows, or is left out. -/
theorem cons_mem_phrase_mul {category : Category} :
    kind :: word ∈ words [.phrase category] * language ↔
      (∃ symbols ∈ choices category kind, kind :: word ∈ words symbols * language) ∨
        category.isErasable = true ∧ kind :: word ∈ language := by
  constructor
  · intro h
    rcases cons_mem_mul.mp h with ⟨left, right, rfl, hleft, hright⟩ | ⟨hnil, hword⟩
    · obtain ⟨symbols, hmem, hsymbols⟩ := mem_sum_words.mp (phrase_choice hleft)
      exact Or.inl ⟨symbols, hmem, Language.append_mem_mul hsymbols hright⟩
    · have herase := Derives.erasable (mem_words.mp hnil)
      exact Or.inr ⟨by simpa [isErasable] using herase, hword⟩
  · rintro (⟨symbols, hmem, h⟩ | ⟨herase, h⟩)
    · exact mul_le_mul_left (words_le_phrase (List.mem_of_mem_filter hmem)) language h
    · exact Language.append_mem_mul (nil_mem_phrase herase) h

/-- A phrase that no word starting with the kind derives from is left out. -/
theorem cons_mem_phrase_mul_of_not_mem {category : Category} (hkind : kind ∉ category.leaders)
    (herase : category.isErasable = true) :
    kind :: word ∈ words [.phrase category] * language ↔ kind :: word ∈ language := by
  rw [cons_mem_phrase_mul]
  constructor
  · rintro (⟨symbols, hmem, -⟩ | ⟨-, h⟩)
    · obtain ⟨hproduction, hleader⟩ := List.mem_filter.mp hmem
      exact absurd ((leaders_of_production hproduction).1 kind (by simpa using hleader)) hkind
    · exact h
  · exact fun h ↦ Or.inr ⟨herase, h⟩

/-- No word of a phrase that cannot be left out starts with a kind that is none of its leaders. -/
theorem not_cons_mem_phrase_mul {category : Category} (hkind : kind ∉ category.leaders)
    (herase : category.isErasable = false) :
    kind :: word ∉ words [.phrase category] * language := by
  rw [cons_mem_phrase_mul]
  rintro (⟨symbols, hmem, -⟩ | ⟨hskip, -⟩)
  · obtain ⟨hproduction, hleader⟩ := List.mem_filter.mp hmem
    exact hkind ((leaders_of_production hproduction).1 kind (by simpa using hleader))
  · rw [herase] at hskip
    cases hskip

/-- A phrase that may be left out is there when what follows cannot start with the kind. -/
theorem cons_mem_phrase_mul_of_pair {category : Category} {symbols : List Symbol}
    (hpair : productions category = [[], symbols]) (hword : kind :: word ∉ language) :
    kind :: word ∈ words [.phrase category] * language ↔
      kind :: word ∈ words symbols * language := by
  have hphrase : words [.phrase category] = 1 + words symbols := by
    rw [words_phrase, hpair, List.map_cons, List.map_cons, List.map_nil, List.sum_cons,
      List.sum_cons, List.sum_nil, words_nil, add_zero]
  rw [hphrase, add_mul, one_mul, Language.mem_add]
  exact or_iff_right hword

/-- A phrase that cannot be left out is the one production that its first kind allows. -/
theorem cons_mem_phrase_mul_of_choice {category : Category} {symbols : List Symbol}
    (hchoice : choices category kind = [symbols]) (herase : category.isErasable = false) :
    kind :: word ∈ words [.phrase category] * language ↔
      kind :: word ∈ words symbols * language := by
  rw [cons_mem_phrase_mul, hchoice, herase]
  simp

/-- A sequence that starts with a given token may start with any. -/
theorem cons_mem_token_mul_self {rest : List Symbol} :
    kind :: word ∈ words (.token kind :: rest) * language ↔
      kind :: word ∈ anyKind * words rest * language := by
  rw [cons_mem_token_mul, mul_assoc, cons_mem_any_mul]
  exact and_iff_right rfl

/-- A branch that a token opens is there or left out. -/
theorem cons_mem_optional_mul {expected : TokenKind} {rest : List Symbol} :
    kind :: word ∈ optional (.token expected :: rest) * language ↔
      kind = expected ∧ word ∈ words rest * language ∨ kind :: word ∈ language := by
  rw [optional, add_mul, one_mul, Language.mem_add, cons_mem_token_mul]
  exact Or.comm

/-! ## What words start with -/

/-- A sequence that cannot be erased decides what its words start with. -/
theorem led_by_words_mul {symbols : List Symbol} (h : isErasable symbols = false) :
    LedBy (leaders symbols) (words symbols * language) := by
  intro kind word hword
  rcases cons_mem_mul.mp hword with ⟨left, right, -, hleft, -⟩ | ⟨hnil, -⟩
  · exact Derives.leader hleft
  · exact absurd hnil (nil_not_mem_words h)

/-- A phrase that may be left out starts with its own leaders or with what follows. -/
theorem LedBy.phrase_mul {category : Category} {kinds : List TokenKind}
    (h : LedBy kinds language) :
    LedBy (category.leaders ++ kinds) (words [.phrase category] * language) := by
  intro kind word hword
  rcases cons_mem_mul.mp hword with ⟨left, right, -, hleft, -⟩ | ⟨-, hrest⟩
  · have hleader := Derives.leader hleft
    simp only [leaders, List.mem_append] at hleader
    rcases hleader with hleader | hleader
    · exact List.mem_append_left kinds hleader
    · split at hleader <;> simp at hleader
  · exact List.mem_append_right category.leaders (h hrest)

/-- A kind that is not listed starts no word. -/
theorem LedBy.not_mem {kinds : List TokenKind} (h : LedBy kinds language) (hkind : kind ∉ kinds) :
    kind :: word ∉ language :=
  fun hword ↦ hkind (h hword)

/-- Behind an expression no operator is left to read. -/
theorem LedBy.resumes {kinds : List TokenKind} (h : LedBy kinds language)
    (hends : ∀ kind ∈ kinds, kind ∈ expressionEnds) : Resumes language := by
  intro kind word power hword hpower _
  have hkind := hends kind (h hword)
  have hnone : ∀ kind ∈ expressionEnds, operatorPower? kind = none := by decide
  rw [hnone kind hkind] at hpower
  cases hpower

/-- A whole expression may stand in front of a token that ends it. -/
theorem LedBy.closes {kinds : List TokenKind} (h : LedBy kinds language)
    (hends : ∀ kind ∈ kinds, kind ∈ expressionEnds) : Closes .lowest language where
  le_unary := by decide
  resumes := h.resumes hends
  absorbs hlowest := absurd (by decide) hlowest

/-- Where no `else` follows, none has to be bound. -/
theorem LedBy.else_binds {kinds : List TokenKind} (h : LedBy kinds language)
    (helse : .elseWord ∉ kinds) : ElseBinds language :=
  fun _ hword ↦ absurd (h hword) helse

/-- A whole expression may stand in front of a token that ends it. -/
theorem closes_token_mul {expected : TokenKind} (h : expected ∈ expressionEnds) :
    Closes .lowest (words [.token expected] * language) := by
  refine (led_by_words_mul rfl).closes ?_
  simpa [leaders] using h

/-- Behind an open branch every `else` is bound, to it or to a statement around it. -/
theorem ElseBinds.optional_mul (h : ElseBinds language) :
    ElseBinds (optional [.token .elseWord, .phrase .statement] * language) := by
  intro word hword
  have hle : language ≤ optional [.token .elseWord, .phrase .statement] * language := by
    rw [optional, add_mul, one_mul]
    exact le_self_add
  have hbound : .elseWord :: word ∈ words [.token .elseWord, .phrase .statement] * language := by
    rcases cons_mem_optional_mul.mp hword with ⟨-, hrest⟩ | hrest
    · exact cons_mem_token_mul.mpr ⟨rfl, hrest⟩
    · exact h hrest
  exact mul_le_mul_right hle _ hbound

end

end Decaf
