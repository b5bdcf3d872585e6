import IamInventory.Text.Casing.Tables

/-!
# Letter case — the small-letter form of a text

  Every character is replaced by its small letter, with two exceptions that the Unicode standard
  makes: the capital I with a dot becomes two characters, and the capital sigma becomes a final
  sigma at the end of a word.

* **`lower`** — the small-letter form of a text.
* **`upperAscii`** — the capital of a character as far as it is an ASCII letter.
-/

namespace IamInventory.Text

/-- The small letter of a code point by the table; a code point without one stands for itself. -/
def lowerCode (n : Nat) : Nat :=
  match lowering.find? fun r => r.1 ≤ n && n ≤ r.2.1 && (n - r.1) % r.2.2.1 == 0 with
  | some r => ((n : Int) + r.2.2.2).toNat
  | none => n

/-- Whether the first character that a sigma's context does not skip is a letter with case. -/
def meetsCased (cs : List Char) : Bool :=
  match cs.dropWhile caseIgnorable.hasChar with
  | [] => false
  | c :: _ => cased.hasChar c

/-- The small letters of one character between the characters `before` it, last one first, and
    those `after` it. -/
def lowerChar (before : List Char) (c : Char) (after : List Char) : List Char :=
  if c = 'İ' then ['i', '\u0307']
  else if c = 'Σ' then [if meetsCased before && !meetsCased after then 'ς' else 'σ']
  else [Char.ofNat (lowerCode c.toNat)]

/-- The small letters of the characters after `before`, whose last one is first. -/
def lowerChars (before : List Char) : List Char → List Char
  | [] => []
  | c :: cs => lowerChar before c cs ++ lowerChars (c :: before) cs

/-- The small-letter form of a text. -/
def lower (s : String) : String := String.ofList (lowerChars [] s.toList)

/-- The capital of a character where that is one ASCII letter. Outside ASCII only the dotless i
    and the long s have one. -/
def upperAscii (c : Char) : Char :=
  if c = 'ı' then 'I' else if c = 'ſ' then 'S' else c.toUpper

end IamInventory.Text
