import IamInventory.Text.CharSet

/-!
# Blanks — the characters that count as white space around a text

  `strip` removes blanks on both ends of a text. A number may be written between blanks too,
  but the four information separators U+001C to U+001F are no blanks there.

* **`strip`** — a text without the blanks around it.
* **`stripNumber`** — the same for the text of a number.
-/

namespace IamInventory.Text

/-- The blanks: the white space of Unicode and the information separators. -/
def blanks : CharSet :=
  [(0x9, 0xD), (0x1C, 0x20), (0x85, 0x85), (0xA0, 0xA0), (0x1680, 0x1680), (0x2000, 0x200A),
   (0x2028, 0x2029), (0x202F, 0x202F), (0x205F, 0x205F), (0x3000, 0x3000)]

/-- Whether a character is a blank. -/
def isBlank (c : Char) : Bool := blanks.hasChar c

/-- Whether a character may stand beside the text of a number: a blank that is no information
    separator. -/
def isNumberBlank (c : Char) : Bool := isBlank c && !(0x1C ≤ c.toNat && c.toNat ≤ 0x1F)

/-- The characters without those satisfying `p` at the start and at the end. -/
def trimBoth (p : Char → Bool) (cs : List Char) : List Char :=
  ((cs.dropWhile p).reverse.dropWhile p).reverse

/-- The text without the blanks around it. -/
def strip (s : String) : String := String.ofList (trimBoth isBlank s.toList)

/-- The characters of a number without the blanks around them. -/
def stripNumber (cs : List Char) : List Char := trimBoth isNumberBlank cs

end IamInventory.Text
