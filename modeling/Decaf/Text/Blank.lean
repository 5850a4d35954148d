import Decaf.Text.CharSet

/-!
# White space at the end of a text

The Unicode property White_Space, and a text without the white space at its end.
-/

namespace Decaf

/-- The characters with the property White_Space. -/
def whiteSpace : CharSet :=
  ⟨[(0x9, 0xd), (0x20, 0x20), (0x85, 0x85), (0xa0, 0xa0), (0x1680, 0x1680), (0x2000, 0x200a),
      (0x2028, 0x2029), (0x202f, 0x202f), (0x205f, 0x205f), (0x3000, 0x3000)]⟩

/-- A text without the white space at its end. -/
def trimEnd (text : List Char) : List Char :=
  (text.reverse.dropWhile whiteSpace.contains).reverse

/-- Trimming only removes white space from the end. -/
theorem trim_end_append (text : List Char) :
    ∃ blank, text = trimEnd text ++ blank ∧ ∀ c ∈ blank, whiteSpace.contains c = true := by
  refine ⟨(text.reverse.takeWhile whiteSpace.contains).reverse, ?_, ?_⟩
  · rw [trimEnd, ← List.reverse_append, List.takeWhile_append_dropWhile, List.reverse_reverse]
  · intro c hc
    exact List.all_eq_true.mp List.all_takeWhile c (List.mem_reverse.mp hc)

end Decaf
