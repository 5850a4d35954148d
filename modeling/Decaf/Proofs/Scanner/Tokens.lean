import Decaf.Proofs.Scanner.Forms
import Mathlib.Algebra.Group.Nat.Defs

/-!
# Kind, text and value of a token

The kind of a token tells the form of its text, and the text tells the kind and the value.
`token_found` leads a token of a scan back to its segment. The kind goes with the form of this
segment (`token_form`), and only one form has a given kind. In the other direction, a token's
segment is longest also where nothing follows, so that its text tells it from all other segments
(`eq_of_same_text`), and with it what it means. `token_coherent` puts both directions together.
-/

namespace Decaf

/-- A string between its quotes. -/
def IsQuoted (text body : List Char) : Prop :=
  text = '"' :: body ++ ['"'] ∧ IsStringBody body

/-- The kinds of words: identifiers, and the kinds of reserved words. -/
def wordKinds : List TokenKind :=
  .identifier :: reservedWords.map Prod.snd

/-- The kinds of words have no symbol and are not those of other literals. -/
theorem word_kinds_apart : ∀ kind ∈ wordKinds,
    kind.symbol? = none ∧ kind ≠ .intLiteral ∧ kind ≠ .stringLiteral := by
  decide

/-- The kind of a reserved word is one of those listed. -/
theorem reserved_kind_mem {word : String} {kind : TokenKind} (h : reservedKind? word = some kind) :
    kind ∈ reservedWords.map Prod.snd :=
  List.mem_map.mpr ⟨(word, kind), mem_of_reserved_kind h, rfl⟩

/-- No reserved word is an identifier. -/
theorem reserved_kind_ne {word : String} {kind : TokenKind} (h : reservedKind? word = some kind) :
    kind ≠ .identifier := by
  have hnone : .identifier ∉ reservedWords.map Prod.snd := by decide
  exact ne_of_mem_of_not_mem (reserved_kind_mem h) hnone

/-- A reserved word is written like any other word. -/
theorem is_word_of_reserved {word : String} {kind : TokenKind} (h : reservedKind? word = some kind) :
    IsWord word.toList := by
  have hall : ∀ entry ∈ reservedWords, entry.1.toList.head?.any startsWord = true ∧
      entry.1.toList.tail.all continuesWord = true := by
    decide
  obtain ⟨hhead, htail⟩ := hall _ (mem_of_reserved_kind h)
  cases hword : word.toList with
  | nil =>
      rw [hword] at hhead
      cases hhead
  | cons c rest =>
      rw [hword] at hhead htail
      exact ⟨c, rest, rfl, hhead, List.all_eq_true.mp htail⟩

/-- A reserved word has the kind it is listed with, and a value if it is a truth value. -/
theorem word_meaning_of_reserved {word : String} {kind : TokenKind}
    (h : reservedKind? word = some kind) :
    Segment.wordMeaning word =
      (kind, if kind = .boolLiteral then .bool (word = "true") else .none) := by
  unfold Segment.wordMeaning
  rw [h]
  split
  · next heq =>
    cases heq
    rw [if_pos rfl]
    rfl
  · next hother heq =>
    cases heq
    rw [if_neg hother]
  · next heq => cases heq

/-- Any other word is an identifier that denotes its name. -/
theorem word_meaning_of_not_reserved {word : String} (h : reservedKind? word = none) :
    Segment.wordMeaning word = (.identifier, .identifier word) := by
  rw [Segment.wordMeaning, h]

/-- The kind of a word is one of those listed. -/
theorem word_meaning_kind (word : String) : (Segment.wordMeaning word).1 ∈ wordKinds := by
  cases hkind : reservedKind? word with
  | none =>
      rw [word_meaning_of_not_reserved hkind]
      exact List.mem_cons_self
  | some kind =>
      rw [word_meaning_of_reserved hkind]
      exact List.mem_cons_of_mem _ (reserved_kind_mem hkind)

/-- The value of a run of digits is the number they denote, up to the largest of 64 bits with a
sign. -/
theorem number_value_eq (digits : List Char) :
    Segment.numberValue digits =
      if Nat.ofDigitChars 10 digits 0 ≤ 2 ^ 63 - 1 then .int (Nat.ofDigitChars 10 digits 0)
      else .none := rfl

section

variable {segment other : Segment} {after : List Char} {kind : TokenKind} {value : TokenValue}

/-- The segment of a token is longest also where nothing follows. -/
theorem Segment.Longest.alone (h : segment.Longest after) (hrole : segment.role = .token) :
    segment.Longest [] := by
  cases h with
  | word hletters => exact .word hletters nofun
  | number hdigits => exact .number hdigits nofun
  | string hbody => exact .string hbody
  | symbol hsymbol => exact .symbol hsymbol nofun fun _ ↦ nofun
  | _ => cases hrole

/-- The text of a token tells its segment from all others. -/
theorem eq_of_same_text (h : segment.Longest after)
    (hmeaning : segment.meaning? = some (kind, value)) (hother : other.Longest [])
    (htext : segment.text = other.text) : segment = other :=
  (h.alone (meaning_iff_role.mp ⟨_, hmeaning⟩)).unique hother htext

/-! ## From the kind to the text -/

/-- What a token's segment looks like depends on its kind. -/
theorem token_form (h : segment.Longest after) (hmeaning : segment.meaning? = some (kind, value)) :
    (kind ∈ wordKinds ∧ IsWord segment.text) ∨
      (kind = .intLiteral ∧ IsNumber segment.text) ∨
      (kind = .stringLiteral ∧ ∃ body, IsQuoted segment.text body) ∨
      (kind.symbol? = some (String.ofList segment.text) ∧ value = .none) := by
  cases h with
  | @word letters hletters =>
      have hkind := word_meaning_kind (String.ofList letters)
      rw [Option.some.inj hmeaning] at hkind
      exact Or.inl ⟨hkind, hletters⟩
  | number hdigits =>
      cases hmeaning
      exact Or.inr (Or.inl ⟨rfl, hdigits⟩)
  | string hbody =>
      cases hmeaning
      exact Or.inr (Or.inr (Or.inl ⟨rfl, _, rfl, hbody⟩))
  | symbol hsymbol =>
      cases hmeaning
      exact Or.inr (Or.inr (Or.inr ⟨hsymbol, rfl⟩))
  | _ => cases hmeaning

/-- A token of a word's kind is a word. -/
theorem is_word_of_kind (h : segment.Longest after)
    (hmeaning : segment.meaning? = some (kind, value)) (hkind : kind ∈ wordKinds) :
    IsWord segment.text := by
  obtain ⟨hnone, hnumber, hstring⟩ := word_kinds_apart kind hkind
  rcases token_form h hmeaning with ⟨-, hword⟩ | ⟨hother, -⟩ | ⟨hother, -⟩ | ⟨hsymbol, -⟩
  · exact hword
  · exact absurd hother hnumber
  · exact absurd hother hstring
  · exact absurd (hnone.symm.trans hsymbol) (Option.some_ne_none _).symm

/-- An integer literal is a run of digits. -/
theorem is_number_of_kind (h : segment.Longest after)
    (hmeaning : segment.meaning? = some (.intLiteral, value)) : IsNumber segment.text := by
  rcases token_form h hmeaning with ⟨hword, -⟩ | ⟨-, hnumber⟩ | ⟨hother, -⟩ | ⟨hsymbol, -⟩
  · exact absurd rfl (word_kinds_apart _ hword).2.1
  · exact hnumber
  · cases hother
  · cases hsymbol

/-- A string literal stands between quotes. -/
theorem is_quoted_of_kind (h : segment.Longest after)
    (hmeaning : segment.meaning? = some (.stringLiteral, value)) :
    ∃ body, IsQuoted segment.text body := by
  rcases token_form h hmeaning with ⟨hword, -⟩ | ⟨hother, -⟩ | ⟨-, hquoted⟩ | ⟨hsymbol, -⟩
  · exact absurd rfl (word_kinds_apart _ hword).2.2
  · cases hother
  · exact hquoted
  · cases hsymbol

/-- A token of any other kind is the symbol of its kind. -/
theorem symbol_of_kind (h : segment.Longest after)
    (hmeaning : segment.meaning? = some (kind, value)) (hword : kind ∉ wordKinds)
    (hnumber : kind ≠ .intLiteral) (hstring : kind ≠ .stringLiteral) :
    kind.symbol? = some (String.ofList segment.text) ∧ value = .none := by
  rcases token_form h hmeaning with ⟨hkind, -⟩ | ⟨hkind, -⟩ | ⟨hkind, -⟩ | hsymbol
  · exact absurd hkind hword
  · exact absurd hkind hnumber
  · exact absurd hkind hstring
  · exact hsymbol

/-- No token is the end of the input. -/
theorem kind_ne_end (h : segment.Longest after)
    (hmeaning : segment.meaning? = some (kind, value)) : kind ≠ .endOfInput := by
  rintro rfl
  cases (symbol_of_kind h hmeaning (by decide) (by decide) (by decide)).1

/-! ## From the text to kind and value -/

/-- A token that is a word means what the word means. -/
theorem meaning_of_word (h : segment.Longest after)
    (hmeaning : segment.meaning? = some (kind, value)) (hword : IsWord segment.text) :
    Segment.wordMeaning (String.ofList segment.text) = (kind, value) := by
  have heq : segment = .word segment.text := eq_of_same_text h hmeaning (.word hword nofun) rfl
  rw [heq] at hmeaning
  exact Option.some.inj hmeaning

/-- A token that is a run of digits is an integer literal with the value of the number. -/
theorem meaning_of_number (h : segment.Longest after)
    (hmeaning : segment.meaning? = some (kind, value)) (hnumber : IsNumber segment.text) :
    kind = .intLiteral ∧ value = Segment.numberValue segment.text := by
  have heq : segment = .number segment.text :=
    eq_of_same_text h hmeaning (.number hnumber nofun) rfl
  rw [heq] at hmeaning
  cases hmeaning
  exact ⟨rfl, rfl⟩

/-- A token that stands between quotes is a string literal with what they enclose as its value. -/
theorem meaning_of_quoted {body : List Char} (h : segment.Longest after)
    (hmeaning : segment.meaning? = some (kind, value)) (hquoted : IsQuoted segment.text body) :
    kind = .stringLiteral ∧ value = .string (String.ofList body) := by
  have heq : segment = .string body := eq_of_same_text h hmeaning (.string hquoted.2) hquoted.1
  rw [heq] at hmeaning
  cases hmeaning
  exact ⟨rfl, rfl⟩

/-- A token that is a reserved word has the kind of this word, and a value if it is a truth
value. -/
theorem meaning_of_reserved {reserved : TokenKind} (h : segment.Longest after)
    (hmeaning : segment.meaning? = some (kind, value))
    (hreserved : reservedKind? (String.ofList segment.text) = some reserved) :
    kind = reserved ∧ value = if reserved = .boolLiteral then
      .bool (String.ofList segment.text = "true") else .none := by
  have hword := is_word_of_reserved hreserved
  rw [String.toList_ofList] at hword
  have heq := meaning_of_word h hmeaning hword
  rw [word_meaning_of_reserved hreserved] at heq
  exact ⟨(Prod.mk.inj heq).1.symm, (Prod.mk.inj heq).2.symm⟩

/-- A token that is any other word is an identifier that denotes its name. -/
theorem meaning_of_not_reserved (h : segment.Longest after)
    (hmeaning : segment.meaning? = some (kind, value)) (hword : IsWord segment.text)
    (hnone : reservedKind? (String.ofList segment.text) = none) :
    kind = .identifier ∧ value = .identifier (String.ofList segment.text) := by
  have heq := meaning_of_word h hmeaning hword
  rw [word_meaning_of_not_reserved hnone] at heq
  exact ⟨(Prod.mk.inj heq).1.symm, (Prod.mk.inj heq).2.symm⟩

/-! ## Both directions -/

/-- Identifiers are the words that are not reserved. -/
theorem kind_eq_identifier_iff (h : segment.Longest after)
    (hmeaning : segment.meaning? = some (kind, value)) :
    kind = .identifier ↔
      IsWord segment.text ∧ reservedKind? (String.ofList segment.text) = none := by
  constructor
  · rintro rfl
    refine ⟨is_word_of_kind h hmeaning List.mem_cons_self, ?_⟩
    refine Option.eq_none_iff_forall_ne_some.mpr fun reserved hreserved ↦ ?_
    exact reserved_kind_ne hreserved (meaning_of_reserved h hmeaning hreserved).1.symm
  · rintro ⟨hword, hnone⟩
    exact (meaning_of_not_reserved h hmeaning hword hnone).1

/-- A token has the kind of a reserved word where it is one that is listed with this kind. -/
theorem kind_eq_reserved_iff {reserved : TokenKind} (h : segment.Longest after)
    (hmeaning : segment.meaning? = some (kind, value))
    (hmem : reserved ∈ reservedWords.map Prod.snd) :
    kind = reserved ↔ reservedKind? (String.ofList segment.text) = some reserved := by
  constructor
  · rintro rfl
    have hword := is_word_of_kind h hmeaning (List.mem_cons_of_mem _ hmem)
    cases hlookup : reservedKind? (String.ofList segment.text) with
    | none =>
        rw [(meaning_of_not_reserved h hmeaning hword hlookup).1] at hmem
        exact absurd hmem (by decide)
    | some found => rw [(meaning_of_reserved h hmeaning hlookup).1]
  · exact fun hlookup ↦ (meaning_of_reserved h hmeaning hlookup).1

/-- Integer literals are the runs of digits. -/
theorem kind_eq_int_literal_iff (h : segment.Longest after)
    (hmeaning : segment.meaning? = some (kind, value)) :
    kind = .intLiteral ↔ IsNumber segment.text := by
  constructor
  · rintro rfl
    exact is_number_of_kind h hmeaning
  · exact fun hnumber ↦ (meaning_of_number h hmeaning hnumber).1

/-- String literals are what stands between quotes. -/
theorem kind_eq_string_literal_iff (h : segment.Longest after)
    (hmeaning : segment.meaning? = some (kind, value)) :
    kind = .stringLiteral ↔ ∃ body, IsQuoted segment.text body := by
  constructor
  · rintro rfl
    exact is_quoted_of_kind h hmeaning
  · exact fun ⟨body, hquoted⟩ ↦ (meaning_of_quoted h hmeaning hquoted).1

end

/-! ## The tokens of a scan -/

/-- Kind, text and value of a token fit together. Reserved words, literals and identifiers are told
by their text, and every other token is the symbol of its kind. Only literals and identifiers have
a value, and of the integers only those in range. -/
structure Token.Coherent (token : Token) : Prop where
  not_end : token.kind ≠ .endOfInput
  identifier : token.kind = .identifier ↔
    IsWord token.lexeme.toList ∧ reservedKind? token.lexeme = none
  identifier_value : token.kind = .identifier → token.value = .identifier token.lexeme
  reserved : ∀ kind ∈ reservedWords.map Prod.snd,
    token.kind = kind ↔ reservedKind? token.lexeme = some kind
  reserved_value : ∀ kind, reservedKind? token.lexeme = some kind →
    token.value = if kind = .boolLiteral then .bool (token.lexeme = "true") else .none
  number : token.kind = .intLiteral ↔ IsNumber token.lexeme.toList
  number_value : token.kind = .intLiteral →
    token.value = if Nat.ofDigitChars 10 token.lexeme.toList 0 ≤ 2 ^ 63 - 1 then
      .int (Nat.ofDigitChars 10 token.lexeme.toList 0) else .none
  string : token.kind = .stringLiteral ↔ ∃ body, IsQuoted token.lexeme.toList body
  string_value : ∀ body, IsQuoted token.lexeme.toList body →
    token.value = .string (String.ofList body)
  symbol : token.kind ∉ wordKinds → token.kind ≠ .intLiteral → token.kind ≠ .stringLiteral →
    token.kind.symbol? = some token.lexeme ∧ token.value = .none

section

variable {source file : String} {token : Token}

/-- A token comes from a segment that is longest in front of the rest of the source. -/
theorem token_found (h : token ∈ (tokenize source file).tokens) :
    ∃ before segment after, segments source.toList = before ++ segment :: after ∧
      segment.Longest (after.flatMap Segment.text) ∧
      segment.meaning? = some (token.kind, token.value) ∧
      token.lexeme = String.ofList segment.text ∧
      token.span = Placed.span file ⟨placeBehind before, segment⟩ := by
  obtain ⟨before, segment, after, hsplit, hheld⟩ := mem_tokens.mp h
  obtain ⟨meaning, hmeaning, rfl⟩ := token_eq_some.mp hheld
  exact ⟨before, segment, after, hsplit, segments_longest hsplit, hmeaning, rfl, rfl⟩

/-- The kind, the text and the value of every token fit together. -/
theorem token_coherent (h : token ∈ (tokenize source file).tokens) : token.Coherent := by
  obtain ⟨kind, lexeme, value, span⟩ := token
  obtain ⟨before, segment, after, -, hlongest, hmeaning, rfl, -⟩ := token_found h
  change segment.meaning? = some (kind, value) at hmeaning
  have hidentifier := kind_eq_identifier_iff hlongest hmeaning
  have hnumber := kind_eq_int_literal_iff hlongest hmeaning
  constructor <;> simp only [String.toList_ofList]
  case not_end => exact kind_ne_end hlongest hmeaning
  case identifier => exact hidentifier
  case identifier_value =>
    intro hkind
    obtain ⟨hword, hnone⟩ := hidentifier.mp hkind
    exact (meaning_of_not_reserved hlongest hmeaning hword hnone).2
  case reserved => exact fun reserved ↦ kind_eq_reserved_iff hlongest hmeaning
  case reserved_value =>
    exact fun reserved hreserved ↦ (meaning_of_reserved hlongest hmeaning hreserved).2
  case number => exact hnumber
  case number_value =>
    intro hkind
    rw [(meaning_of_number hlongest hmeaning (hnumber.mp hkind)).2, number_value_eq]
  case string => exact kind_eq_string_literal_iff hlongest hmeaning
  case string_value => exact fun body hquoted ↦ (meaning_of_quoted hlongest hmeaning hquoted).2
  case symbol => exact symbol_of_kind hlongest hmeaning

end

/-- A number with leading zeros that is out of range by one. -/
theorem token_coherent_out_of_range :
    ⟨.intLiteral, "009223372036854775808", .none, ⟨"f", ⟨4, 1, 5⟩, ⟨25, 1, 26⟩⟩⟩ ∈
        (tokenize "x = 009223372036854775808;" "f").tokens ∧
      Token.Coherent
        ⟨.intLiteral, "009223372036854775808", .none, ⟨"f", ⟨4, 1, 5⟩, ⟨25, 1, 26⟩⟩⟩ := by
  have h : ⟨.intLiteral, "009223372036854775808", .none, ⟨"f", ⟨4, 1, 5⟩, ⟨25, 1, 26⟩⟩⟩ ∈
      (tokenize "x = 009223372036854775808;" "f").tokens := by
    decide +kernel
  exact ⟨h, token_coherent h⟩

end Decaf
