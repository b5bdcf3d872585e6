import IamInventory.Text.Utf8

/-!
# Percent coding — bytes in a text of ASCII characters

  A percent sign and two hexadecimal digits stand for a byte. Writing escapes every byte that is
  no letter, digit or one of the four unreserved marks. Reading turns each maximal run of ASCII
  characters into bytes and those into characters; characters outside ASCII stand for themselves.

* **`Percent.escape`** — the text of characters, all reserved ones escaped.
* **`Percent.firstMalformed`** — the first percent sign that two digits do not follow.
* **`Percent.unescape`** — the characters of a text, run by run.
-/

namespace IamInventory.Text.Percent

/-- Whether a byte is written as itself: a letter, a digit, or one of `_`, `.`, `-`, `~`. -/
def isUnreserved (b : UInt8) : Bool :=
  (0x30 ≤ b && b ≤ 0x39) || (0x41 ≤ b && b ≤ 0x5A) || (0x61 ≤ b && b ≤ 0x7A) ||
    b == 0x5F || b == 0x2E || b == 0x2D || b == 0x7E

/-- The upper-case hexadecimal digit with the given value, for values below sixteen. -/
def upperHexChar (n : Nat) : Char :=
  if n % 16 < 10 then Char.ofNat (48 + n % 16) else Char.ofNat (55 + n % 16)

/-- One byte in percent coding. -/
def escapeByte (b : UInt8) : List Char :=
  if isUnreserved b then [Char.ofNat b.toNat]
  else ['%', upperHexChar (b.toNat / 16), upperHexChar b.toNat]

/-- The percent-coded text of characters. -/
def escape (cs : List Char) : List Char := (Utf8.encode cs).flatMap escapeByte

/-- Whether two hexadecimal digits come first. -/
def startsWithByte : List Char → Bool
  | a :: b :: _ => (hexDigit? a).isSome && (hexDigit? b).isSome
  | _ => false

/-- The first percent sign that two hexadecimal digits do not follow: its offset, counted from
    `offset`, and up to three characters from there. -/
def firstMalformed (offset : Nat) : List Char → Option (Nat × List Char)
  | [] => none
  | c :: cs =>
    if c = '%' ∧ !startsWithByte cs then some (offset, (c :: cs).take 3)
    else firstMalformed (offset + 1) cs

/-- The bytes that a run of ASCII characters stands for. A percent sign that starts no escape
    stands for itself. -/
def runBytes : List Char → List UInt8
  | '%' :: a :: b :: cs =>
    match hexDigit? a, hexDigit? b with
    | some x, some y => UInt8.ofNat (16 * x + y) :: runBytes cs
    | _, _ => 0x25 :: runBytes (a :: b :: cs)
  | c :: cs => UInt8.ofNat c.toNat :: runBytes cs
  | [] => []

/-- Reads a text whose current run of ASCII characters is `run` and whose characters so far are
    `done`, both last one first. -/
def unescapeFrom (run done : List Char) : List Char → Except Utf8.Malformed (List Char)
  | [] => do
    let cs ← Utf8.decode (runBytes run.reverse)
    .ok (done.reverse ++ cs)
  | c :: cs =>
    if c.toNat < 0x80 then unescapeFrom (c :: run) done cs
    else do
      let read ← Utf8.decode (runBytes run.reverse)
      unescapeFrom [] (c :: (read.reverse ++ done)) cs

/-- **The characters of a percent-coded text.** A malformed place is counted from the start of
    the bytes of its own run. -/
def unescape (cs : List Char) : Except Utf8.Malformed (List Char) := unescapeFrom [] [] cs

end IamInventory.Text.Percent
