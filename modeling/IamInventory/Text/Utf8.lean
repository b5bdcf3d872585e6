import IamInventory.Text.Digit

/-!
# UTF-8 — bytes to characters, refusing what is malformed

  The reader takes one byte at a time. Between characters it owes nothing; after a lead byte it
  knows how many bytes must follow and in which range the next one has to be, so it refuses at
  the first byte that no character continues with.

* **`Utf8.encode`** — the bytes of characters.
* **`Utf8.decode`** — the characters of bytes, or the first malformed place.
* **`Utf8.Malformed.message`** — that place in words.
-/

namespace IamInventory.Text.Utf8

/-- What is wrong with a malformed sequence. -/
inductive Reason where
  | invalidStart
  | invalidContinuation
  | unexpectedEnd
deriving DecidableEq, Repr

/-- A malformed place: where it starts, and the bytes that do not make a character. -/
structure Malformed where
  offset : Nat
  bytes : List UInt8
  reason : Reason
deriving DecidableEq, Repr

/-- What is wrong, in words. -/
def Reason.message : Reason → String
  | .invalidStart => "invalid start byte"
  | .invalidContinuation => "invalid continuation byte"
  | .unexpectedEnd => "unexpected end of data"

/-- The malformed place in words: one byte is shown, several are counted. -/
def Malformed.message (m : Malformed) : String :=
  let place := match m.bytes with
    | [b] => s!"byte 0x{String.ofList (hexText 2 b.toNat)} in position {m.offset}"
    | bs => s!"bytes in position {m.offset}-{m.offset + bs.length - 1}"
  s!"'utf-8' codec can't decode {place}: {m.reason.message}"

/-- The bytes of characters. -/
def encode (cs : List Char) : List UInt8 := cs.flatMap String.utf8EncodeChar

/-- A character that has begun: where it starts, its bytes so far, the code point they give, how
    many bytes are owed, and the least and the greatest byte the next one may be. -/
structure Pending where
  offset : Nat
  bytes : List UInt8
  code : Nat
  owed : Nat
  least : UInt8
  greatest : UInt8
deriving DecidableEq, Repr

/-- What a lead byte at an offset promises. -/
def lead? (offset : Nat) (b : UInt8) : Option Pending :=
  let pending (owed bits : Nat) (least greatest : UInt8) : Option Pending :=
    some ⟨offset, [b], b.toNat % Nat.pow 2 bits, owed, least, greatest⟩
  if 0xC2 ≤ b ∧ b ≤ 0xDF then pending 1 5 0x80 0xBF
  else if b = 0xE0 then pending 2 4 0xA0 0xBF
  else if b = 0xED then pending 2 4 0x80 0x9F
  else if 0xE1 ≤ b ∧ b ≤ 0xEF then pending 2 4 0x80 0xBF
  else if b = 0xF0 then pending 3 3 0x90 0xBF
  else if 0xF1 ≤ b ∧ b ≤ 0xF3 then pending 3 3 0x80 0xBF
  else if b = 0xF4 then pending 3 3 0x80 0x8F
  else none

/-- The character so far with one more byte. -/
def Pending.push (p : Pending) (b : UInt8) : Pending :=
  ⟨p.offset, p.bytes ++ [b], p.code * 64 + b.toNat % 64, p.owed - 1, 0x80, 0xBF⟩

/-- Reads bytes from an offset, with a character that may have begun and the characters read so
    far, last one first. -/
def decodeFrom (offset : Nat) (pending : Option Pending) (done : List Char) :
    List UInt8 → Except Malformed (List Char)
  | [] =>
    match pending with
    | none => .ok done.reverse
    | some p => .error ⟨p.offset, p.bytes, .unexpectedEnd⟩
  | b :: bs =>
    match pending with
    | none =>
      if b < 0x80 then decodeFrom (offset + 1) none (Char.ofNat b.toNat :: done) bs
      else match lead? offset b with
        | none => .error ⟨offset, [b], .invalidStart⟩
        | some p => decodeFrom (offset + 1) (some p) done bs
    | some p =>
      if p.least ≤ b ∧ b ≤ p.greatest then
        if p.owed = 1 then
          decodeFrom (offset + 1) none (Char.ofNat (p.push b).code :: done) bs
        else decodeFrom (offset + 1) (some (p.push b)) done bs
      else .error ⟨p.offset, p.bytes, .invalidContinuation⟩

/-- **The characters of bytes**, or the first malformed place. -/
def decode (bs : List UInt8) : Except Malformed (List Char) := decodeFrom 0 none [] bs

end IamInventory.Text.Utf8
