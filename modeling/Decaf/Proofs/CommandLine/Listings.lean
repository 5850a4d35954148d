import Decaf.CommandLine.Report
import Decaf.Proofs.Diagnostic.Excerpts
import Decaf.Proofs.Scanner.Spacing

/-!
# A token listing can be read back

The text of a token stands unquoted in its line of a listing, and a string may hold whatever else
the line is made of. The line is told apart all the same, by scanning it: the text of the token is
followed by a tab, which is blank, so that its segment is the first one of the line
(`listing_unique`). Behind it stand numbers and words that are set apart from each other. No line of
a listing is broken (`one_line_listing`), so that the lines of a listing are those of its tokens,
and `listing_exact` says that two scans have the same listing only if they have the same tokens in
the same lines and columns.
-/

namespace Decaf

/-! ## Lines of a listing -/

/-- The lines of a text of whole lines are these lines, each with its newline, and an empty one
behind the last newline. -/
theorem lines_of_unlines {lines : List String} (h : ∀ line ∈ lines, OneLine line) :
    linesOf (unlines lines).toList = lines.map (fun line ↦ line.toList ++ ['\n']) ++ [[]] := by
  induction lines with
  | nil => rfl
  | cons line lines ih =>
      rw [to_list_unlines_cons, lines_of_append (h line List.mem_cons_self),
        ih fun other hother ↦ h other (List.mem_cons_of_mem line hother)]
      rfl

/-- A text of whole lines tells its lines. -/
theorem unlines_injective {first second : List String} (hfirst : ∀ line ∈ first, OneLine line)
    (hsecond : ∀ line ∈ second, OneLine line) (h : unlines first = unlines second) :
    first = second := by
  have hlines := lines_of_unlines hfirst
  rw [h, lines_of_unlines hsecond] at hlines
  refine (List.map_injective_iff.mpr (fun line other heq ↦ ?_)
    (List.append_cancel_right hlines)).symm
  exact String.toList_injective (List.append_cancel_right heq)

/-- A listing is the lines of its tokens. -/
theorem Scan.listing_eq (scan : Scan) : scan.listing = unlines (scan.tokens.map Token.listing) := by
  rw [Scan.listing, unlines, List.map_map]
  rfl

section

variable {segment : Segment} {after : List Char} {kind : TokenKind} {value : TokenValue}

/-- The value of a token does not break a line. -/
theorem one_line_value (h : segment.Longest after)
    (hmeaning : segment.meaning? = some (kind, value)) : OneLine value.text := by
  have hwhole := h.no_newline (meaning_iff_role.mp ⟨_, hmeaning⟩)
  cases h with
  | @word letters =>
      cases hkind : reservedKind? (String.ofList letters) with
      | none =>
          obtain ⟨-, rfl⟩ := Prod.mk.inj ((word_meaning_of_not_reserved hkind).symm.trans
            (Option.some.inj hmeaning))
          exact one_line_of_list hwhole
      | some reserved =>
          obtain ⟨-, rfl⟩ := Prod.mk.inj ((word_meaning_of_reserved hkind).symm.trans
            (Option.some.inj hmeaning))
          split
          · cases decide (String.ofList letters = "true") <;> decide
          · decide
  | @number digits =>
      obtain ⟨-, rfl⟩ := Prod.mk.inj (Option.some.inj hmeaning)
      unfold Segment.numberValue
      split
      · exact one_line_number (decimalValue digits)
      · decide
  | @string body hbody =>
      obtain ⟨-, rfl⟩ := Prod.mk.inj (Option.some.inj hmeaning)
      exact (OneLine.append (by decide) (one_line_of_list hbody.2)).append (by decide)
  | symbol =>
      obtain ⟨-, rfl⟩ := Prod.mk.inj (Option.some.inj hmeaning)
      decide
  | _ => cases hmeaning

end

section

variable {source file : String} {token : Token}

/-- The label of a token does not break a line. -/
theorem one_line_token_label (h : token ∈ (tokenize source file).tokens) : OneLine token.label := by
  obtain ⟨_, segment, _, -, hlongest, hmeaning, -⟩ := token_found h
  rw [Token.label]
  split
  · exact (((one_line_label _).append (by decide)).append
      (one_line_value hlongest hmeaning)).append (by decide)
  · exact one_line_label _

/-- A token is listed in one line. -/
theorem one_line_listing (h : token ∈ (tokenize source file).tokens) : OneLine token.listing := by
  have hlexeme : OneLine token.lexeme := (token_columns h).1
  have hline := (hlexeme.append (by decide : OneLine "\tline ")).append (one_line_number token.line)
  have hfirst := (hline.append (by decide : OneLine " cols ")).append
    (one_line_number token.firstColumn)
  have hlast := (hfirst.append (by decide : OneLine "-")).append (one_line_number token.lastColumn)
  exact (hlast.append (by decide : OneLine " is ")).append (one_line_token_label h)

end

/-! ## Reading a line back -/

/-- Two texts that each start with a longest segment have this and what follows it in common. -/
theorem Segment.Longest.unique_in_front {segment other : Segment} {after behind : List Char}
    (h : segment.Longest after) (hother : other.Longest behind)
    (htext : segment.text ++ after = other.text ++ behind) : segment = other ∧ after = behind := by
  have hsegments := segments_of_longest h
  rw [htext, segments_of_longest hother] at hsegments
  obtain ⟨rfl, -⟩ := List.cons.inj hsegments
  exact ⟨rfl, List.append_cancel_left htext⟩

/-- Two texts that each start with a number, up to the same character, have this number and what
follows it in common. -/
theorem number_unique_in_front {first second : Nat} {c : Char} {after behind : List Char}
    (hc : c.isDigit = false)
    (h : (toString first).toList ++ c :: after = (toString second).toList ++ c :: behind) :
    first = second ∧ after = behind := by
  simp only [Nat.toString_eq_ofList_toDigits, String.toList_ofList] at h
  have hdigits (n : Nat) (rest : List Char) :
      (Nat.toDigits 10 n ++ c :: rest).takeWhile Char.isDigit = Nat.toDigits 10 n := by
    refine (take_while_longest (fun d hd ↦ ?_) fun d hd ↦ ?_).1
    · exact Nat.isDigit_of_mem_toDigits (by decide) (by decide) hd
    · rwa [← Option.some.inj hd]
  have hsame : Nat.toDigits 10 first = Nat.toDigits 10 second := by
    rw [← hdigits first after, h, hdigits]
  have hvalue : first = second := calc
    first = Nat.ofDigitChars 10 (Nat.toDigits 10 first) 0 := Nat.ofDigitChars_ten_toDigits.symm
    _ = Nat.ofDigitChars 10 (Nat.toDigits 10 second) 0 := by rw [hsame]
    _ = second := Nat.ofDigitChars_ten_toDigits
  rw [hsame] at h
  exact ⟨hvalue, (List.cons.inj (List.append_cancel_left h)).2⟩

/-- What the listing of a token shows: its kind, its text and its value, and where it stands. -/
structure Listed where
  kind : TokenKind
  lexeme : String
  value : TokenValue
  line : Nat
  firstColumn : Nat
  lastColumn : Nat
deriving DecidableEq, Repr

/-- What is shown of a token. -/
def Token.listed (token : Token) : Listed :=
  ⟨token.kind, token.lexeme, token.value, token.line, token.firstColumn, token.lastColumn⟩

section

variable {first file second other : String} {token later : Token}

/-- The line of a token starts with its segment, and a tab behind it. -/
theorem listing_to_list (token : Token) :
    token.listing.toList = token.lexeme.toList ++ '\t' :: ("line ".toList ++
      ((toString token.line).toList ++ ' ' :: ("cols ".toList ++
        ((toString token.firstColumn).toList ++ '-' ::
          ((toString token.lastColumn).toList ++ ' ' :: ("is " ++ token.label).toList))))) := by
  simp only [Token.listing, String.toList_append, List.append_assoc]
  rfl

/-- The line of a token tells everything that it shows. -/
theorem listing_unique (htoken : token ∈ (tokenize first file).tokens)
    (hlater : later ∈ (tokenize second other).tokens) (h : token.listing = later.listing) :
    token.listed = later.listed := by
  obtain ⟨_, segment, _, -, hlongest, hmeaning, hlexeme, -⟩ := token_found htoken
  obtain ⟨_, found, _, -, hfound, hmeans, htext, -⟩ := token_found hlater
  have hsegment : token.lexeme.toList = segment.text := by rw [hlexeme, String.toList_ofList]
  have hsame : later.lexeme.toList = found.text := by rw [htext, String.toList_ofList]
  have hlists := congrArg String.toList h
  rw [listing_to_list, listing_to_list, hsegment, hsame] at hlists
  -- A scan of either line reads the token first, since a blank stands behind it.
  have htab := hlongest.before_blank (meaning_iff_role.mp ⟨_, hmeaning⟩) (c := '\t') rfl
  have hother := hfound.before_blank (meaning_iff_role.mp ⟨_, hmeans⟩) (c := '\t') rfl
  obtain ⟨rfl, hplace⟩ := (htab _).unique_in_front (hother _) hlists
  obtain ⟨hline, hcolumns⟩ := number_unique_in_front (c := ' ') rfl
    (List.append_cancel_left (List.cons.inj hplace).2)
  obtain ⟨hfirst, hrest⟩ := number_unique_in_front (c := '-') rfl
    (List.append_cancel_left hcolumns)
  obtain ⟨hlast, -⟩ := number_unique_in_front (c := ' ') rfl hrest
  obtain ⟨hkind, hvalue⟩ := Prod.mk.inj (Option.some.inj (hmeaning.symm.trans hmeans))
  rw [Token.listed, Token.listed, hkind, hlexeme, htext, hvalue, hline, hfirst, hlast]

/-- The label of a token depends on its kind and its value. -/
theorem label_congr (hkind : token.kind = later.kind) (hvalue : token.value = later.value) :
    token.label = later.label := by
  rw [Token.label, Token.label, Token.showsValue, Token.showsValue, hkind, hvalue]

/-- The line of a token depends on nothing but what it shows. -/
theorem listing_of_listed (h : token.listed = later.listed) : token.listing = later.listing := by
  obtain ⟨hkind, hlexeme, hvalue, hline, hfirst, hlast⟩ := Listed.mk.inj h
  rw [Token.listing, Token.listing, label_congr hkind hvalue, hlexeme, hline, hfirst, hlast]

end

/-- Texts that agree one by one agree in what each of them tells. -/
theorem map_eq_of_map_eq {α β γ : Type} {first second : List α} {text : α → β} {told : α → γ}
    (hunique : ∀ x ∈ first, ∀ y ∈ second, text x = text y → told x = told y)
    (h : first.map text = second.map text) : first.map told = second.map told := by
  induction first generalizing second with
  | nil =>
      rw [List.map_nil, eq_comm, List.map_eq_nil_iff] at h
      rw [h]
  | cons x first ih =>
      obtain ⟨y, rest, rfl, hhead, htail⟩ := List.map_eq_cons_iff.mp h.symm
      rw [List.map_cons, List.map_cons, hunique x List.mem_cons_self y List.mem_cons_self hhead.symm]
      refine congrArg _ (ih (fun x hx y hy ↦ ?_) htail.symm)
      exact hunique x (List.mem_cons_of_mem _ hx) y (List.mem_cons_of_mem _ hy)

/-- The lines of a listing are those of the tokens, in order. Two sources have the same listing
exactly when their tokens agree one by one in kind, text, value, line and columns. -/
theorem listing_exact (first file second other : String) :
    linesOf (tokenize first file).listing.toList =
        (tokenize first file).tokens.map (fun token ↦ token.listing.toList ++ ['\n']) ++ [[]] ∧
      ((tokenize first file).listing = (tokenize second other).listing ↔
        (tokenize first file).tokens.map Token.listed =
          (tokenize second other).tokens.map Token.listed) := by
  have hwhole (source file : String) :
      ∀ line ∈ (tokenize source file).tokens.map Token.listing, OneLine line := by
    intro line hline
    obtain ⟨token, htoken, rfl⟩ := List.mem_map.mp hline
    exact one_line_listing htoken
  rw [Scan.listing_eq, Scan.listing_eq, lines_of_unlines (hwhole first file), List.map_map]
  refine ⟨rfl, fun h ↦ ?_, fun h ↦ ?_⟩
  · have hlines := unlines_injective (hwhole first file) (hwhole second other) h
    exact map_eq_of_map_eq (fun token htoken later hlater ↦ listing_unique htoken hlater) hlines
  · rw [map_eq_of_map_eq (fun token _ later _ ↦ listing_of_listed) h]

example :
    (tokenize "x \"x\tline 1 cols 1-1 is T_Identifier\"" "f").listing =
      "x\tline 1 cols 1-1 is T_Identifier\n" ++
        "\"x\tline 1 cols 1-1 is T_Identifier\"\tline 1 cols 3-37 is T_StringConstant " ++
        "(value= \"x\tline 1 cols 1-1 is T_Identifier\")\n" := by
  decide +kernel

end Decaf
