import IamInventory.Text.Digit
import IamInventory.Text.Visible

/-!
# Quoted text — a text shown between quotation marks

  The mark is the single one, unless the text holds a single mark and no double one. Inside, the
  mark and the backslash stand behind a backslash, the three usual white-space controls have a
  letter, and every other hidden character is written as its code point in two, four or eight
  hexadecimal digits.

* **`quoted`** — the quoted form of a text.
* **`quotedBytes`** — the quoted form of a byte string, where every byte outside visible ASCII is
  written in two digits.
-/

namespace IamInventory.Text

/-- The mark that stands around a quoted text. -/
def quoteMark (cs : List Char) : Char :=
  if cs.contains '\'' && !cs.contains '"' then '"' else '\''

/-- The code point of a hidden character as an escape. -/
def codeEscape (n : Nat) : List Char :=
  if n ≤ 0xFF then '\\' :: 'x' :: hexText 2 n
  else if n ≤ 0xFFFF then '\\' :: 'u' :: hexText 4 n
  else '\\' :: 'U' :: hexText 8 n

/-- How one character stands between the marks. -/
def quotedChar (mark c : Char) : List Char :=
  if c = mark ∨ c = '\\' then ['\\', c]
  else if c = '\t' then ['\\', 't']
  else if c = '\n' then ['\\', 'n']
  else if c = '\r' then ['\\', 'r']
  else if isVisible c then [c]
  else codeEscape c.toNat

/-- The quoted form of characters. -/
def quotedChars (cs : List Char) : List Char :=
  quoteMark cs :: cs.flatMap (quotedChar (quoteMark cs)) ++ [quoteMark cs]

/-- The quoted form of a text. -/
def quoted (s : String) : String := String.ofList (quotedChars s.toList)

/-- How one byte stands between the marks. -/
def quotedByte (mark : Char) (b : UInt8) : List Char :=
  if 0x20 ≤ b ∧ b < 0x7F then quotedChar mark (Char.ofNat b.toNat)
  else if b = 9 ∨ b = 10 ∨ b = 13 then quotedChar mark (Char.ofNat b.toNat)
  else codeEscape b.toNat

/-- The quoted form of a byte string: the letter `b` and the bytes between marks. -/
def quotedBytes (bs : List UInt8) : String :=
  let mark := quoteMark (bs.map fun b => Char.ofNat b.toNat)
  String.ofList ('b' :: mark :: bs.flatMap (quotedByte mark) ++ [mark])

end IamInventory.Text
