import Decaf.Text.Extending
import Decaf.Text.Unprintable

/-!
# Quoted text

Two ways of showing a character so that a reader can tell what it is. `quoteText` and `quoteChar`
write text between quotes, with escapes for the quote, the backslash, the common controls, and
every character that has no visible form of its own. `asciiEscape` stays within printable ASCII
and writes every other character by its code point.
-/

namespace Decaf

/-- A number in lower case hexadecimal, without leading zeros. -/
def hexadecimal (n : Nat) : List Char :=
  Nat.toDigits 16 n

/-- The escape of a character by its code point. -/
def codePointEscape (c : Char) : List Char :=
  ['\\', 'u', '\x7b'] ++ hexadecimal c.toNat ++ ['\x7d']

/-- A character as it is written between quotes of the given kind: short escapes first, then the
quote itself, then the code point of a character that cannot be seen alone. -/
def quoted (quote : Char) (c : Char) : List Char :=
  if c = '\x00' then ['\\', '0']
  else if c = '\t' then ['\\', 't']
  else if c = '\r' then ['\\', 'r']
  else if c = '\n' then ['\\', 'n']
  else if c = '\\' then ['\\', '\\']
  else if c = quote then ['\\', quote]
  else if extending.contains c || unprintable.contains c || fillers.contains c then
    codePointEscape c
  else [c]

/-- A text between double quotes. Single quotes inside it stay as they are. -/
def quoteText (text : String) : String :=
  String.ofList ('"' :: text.toList.flatMap (quoted '"') ++ ['"'])

/-- A character between single quotes. Double quotes stay as they are. -/
def quoteChar (c : Char) : String :=
  String.ofList ('\'' :: quoted '\'' c ++ ['\''])

/-- A character in printable ASCII: itself, a short escape, or its code point. -/
def asciiEscape (c : Char) : String :=
  if c = '\t' then "\\t"
  else if c = '\r' then "\\r"
  else if c = '\n' then "\\n"
  else if c = '\'' then "\\'"
  else if c = '"' then "\\\""
  else if c = '\\' then "\\\\"
  else if 0x20 ≤ c.toNat ∧ c.toNat ≤ 0x7e then String.ofList [c]
  else String.ofList (codePointEscape c)

end Decaf
