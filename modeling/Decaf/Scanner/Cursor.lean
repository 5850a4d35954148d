import Decaf.Scanner.Scan

/-!
# A scan in steps

A cursor stands at a place of a source text and can be moved over any text, also over text that is
not there, so its offset may lie past the end or inside a character. Looking at the text at such an
offset yields nothing. From a proper place the scan can be taken up again, behind tokens that were
handed in before.
-/

namespace Decaf

/-- What is left of a text behind its first bytes, if those end with a character. -/
def dropBytes? : List Char → Nat → Option (List Char)
  | text, 0 => some text
  | [], _ + 1 => none
  | c :: rest, count => if c.utf8Size ≤ count then dropBytes? rest (count - c.utf8Size) else none

/-- A character that fits into the bytes to drop is dropped. -/
theorem drop_bytes_cons {c : Char} {count : Nat} (rest : List Char) (h : c.utf8Size ≤ count) :
    dropBytes? (c :: rest) count = dropBytes? rest (count - c.utf8Size) := by
  have hpos := c.utf8Size_pos
  cases count with
  | zero => omega
  | succ count => simp [dropBytes?, h]

/-- Dropping the bytes of the first part of a text leaves the second. -/
theorem drop_bytes_append (first second : List Char) :
    dropBytes? (first ++ second) (byteLength first) = some second := by
  induction first with
  | nil => cases second <;> rfl
  | cons c first ih =>
    rw [byte_length_cons, List.cons_append, drop_bytes_cons _ (Nat.le_add_right _ _),
      Nat.add_sub_cancel_left, ih]

/-- What is left behind some bytes of a text follows a first part of as many bytes. -/
theorem drop_bytes_eq_some {text rest : List Char} {count : Nat} :
    dropBytes? text count = some rest ↔
      ∃ front, text = front ++ rest ∧ count = byteLength front := by
  constructor
  · intro h
    fun_induction dropBytes? text count with
    | case1 text =>
        obtain rfl := Option.some.inj h
        exact ⟨[], rfl, rfl⟩
    | case2 => cases h
    | case3 c text count hne hfits ih =>
        obtain ⟨front, rfl, hcount⟩ := ih h
        refine ⟨c :: front, rfl, ?_⟩
        rw [byte_length_cons, ← hcount]
        omega
    | case4 => cases h
  · rintro ⟨front, rfl, rfl⟩
    exact drop_bytes_append front rest

/-- The state of a scan in steps: the source, where the cursor stands, and the tokens handed in, in
order. -/
structure Cursor where
  file : String
  source : List Char
  position : Position
  given : List Token
deriving DecidableEq, Repr

namespace Cursor

/-- A cursor at the start of a source text. -/
def start (source : String) (file : String) : Cursor :=
  ⟨file, source.toList, .start, []⟩

/-- Moves the cursor over a text, whether or not it stands there. -/
def advanceOver (cursor : Cursor) (text : List Char) : Cursor :=
  { cursor with position := cursor.position.advance text }

/-- Hands in a token ahead of those still to be scanned. -/
def push (cursor : Cursor) (token : Token) : Cursor :=
  { cursor with given := cursor.given ++ [token] }

/-- The cursor has reached or passed the end of the source. -/
def atEnd (cursor : Cursor) : Bool :=
  byteLength cursor.source ≤ cursor.position.offset

/-- The source from the cursor on. There is none past the end or inside a character. -/
def remainder? (cursor : Cursor) : Option (List Char) :=
  dropBytes? cursor.source cursor.position.offset

/-- The character at the cursor; the null character stands for the end of the source. -/
def peek? (cursor : Cursor) : Option Char :=
  cursor.remainder?.map fun rest ↦ rest.headD '\x00'

/-- A cursor sees the first character of what follows as many bytes of its source as it has passed.
Where these bytes do not end with a character it sees nothing. -/
theorem peek_eq_some {cursor : Cursor} {c : Char} :
    cursor.peek? = some c ↔ ∃ front back, cursor.source = front ++ back ∧
      cursor.position.offset = byteLength front ∧ back.headD '\x00' = c := by
  rw [peek?, Option.map_eq_some_iff]
  constructor
  · rintro ⟨back, hleft, hc⟩
    obtain ⟨front, hsource, hoffset⟩ := drop_bytes_eq_some.mp hleft
    exact ⟨front, back, hsource, hoffset, hc⟩
  · rintro ⟨front, back, hsource, hoffset, hc⟩
    exact ⟨back, drop_bytes_eq_some.mpr ⟨front, hsource, hoffset⟩, hc⟩

/-- Scans from the cursor to the end of the source. At or past the end nothing is left to scan. -/
def scan? (cursor : Cursor) : Option Scan :=
  if cursor.atEnd then some ⟨cursor.given, []⟩
  else cursor.remainder?.map fun rest ↦
    let scanned := Scan.ofText cursor.file cursor.position rest
    { scanned with tokens := cursor.given ++ scanned.tokens }

end Cursor

end Decaf
