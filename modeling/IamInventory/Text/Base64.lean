/-!
# Base64 — bytes in a text of 64 characters

  Each character of the alphabet stands for six bits, and four of them for three bytes. The reader
  leaves out what is not in the alphabet. Equals signs fill up the last four characters; the reader
  stops where they do, and a text that ends within four characters is refused.

* **`Base64.decode?`** — the bytes of a text.
-/

namespace IamInventory.Text.Base64

/-- The six bits of a character of the alphabet. -/
def sixBits? (c : Char) : Option Nat :=
  if 'A' ≤ c ∧ c ≤ 'Z' then some (c.toNat - 'A'.toNat)
  else if 'a' ≤ c ∧ c ≤ 'z' then some (c.toNat - 'a'.toNat + 26)
  else if '0' ≤ c ∧ c ≤ '9' then some (c.toNat - '0'.toNat + 52)
  else if c = '+' then some 62
  else if c = '/' then some 63
  else none

/-- The byte that is complete after a character at a place among four, whose six bits follow the
    bits that are left from the character before it. -/
def byteAt (place left bits : Nat) : List UInt8 :=
  match place with
  | 1 => [UInt8.ofNat (left * 4 + bits / 16)]
  | 2 => [UInt8.ofNat (left * 16 + bits / 4)]
  | 3 => [UInt8.ofNat (left * 64 + bits)]
  | _ => []

/-- The bits of a character at a place among four that are left for the byte after it. -/
def bitsLeft (place bits : Nat) : Nat :=
  match place with
  | 0 => bits
  | 1 => bits % 16
  | 2 => bits % 4
  | _ => 0

/-- Reads characters from a place among four, with the bits that are left and the count of equals
    signs since the last character of the alphabet. -/
def decodeFrom (place left signs : Nat) : List Char → Option (List UInt8)
  | [] => if place = 0 then some [] else none
  | c :: cs =>
    if c = '=' then
      if place < 2 then decodeFrom place left signs cs
      else if 4 ≤ place + signs + 1 then some []
      else decodeFrom place left (signs + 1) cs
    else match sixBits? c with
      | none => decodeFrom place left signs cs
      | some bits =>
        (decodeFrom ((place + 1) % 4) (bitsLeft place bits) 0 cs).map (byteAt place left bits ++ ·)

/-- **The bytes of a text.** -/
def decode? (cs : List Char) : Option (List UInt8) := decodeFrom 0 0 0 cs

end IamInventory.Text.Base64
