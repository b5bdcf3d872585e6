import IamInventory.Json.Flaw

/-!
# String literals — text between quotation marks in JSON

  A written literal is ASCII: every character outside the visible ones is an escape, and one
  beyond the sixteen-bit code points is a pair of them. A literal that is read may hold any
  character but the control ones, and every escape of the grammar.

* **`writeString`** — the literal of a text.
* **`readString`** — the text of a literal whose opening mark has been read, and what follows it.
-/

namespace IamInventory.Json

open Text

/-- One sixteen-bit code as an escape. -/
def codeEscape (n : Nat) : List Char := '\\' :: 'u' :: hexText 4 n

/-- How one character stands in a literal. -/
def writeChar (c : Char) : List Char :=
  if c = '"' then ['\\', '"']
  else if c = '\\' then ['\\', '\\']
  else if c = '\n' then ['\\', 'n']
  else if c = '\r' then ['\\', 'r']
  else if c = '\t' then ['\\', 't']
  else if c = '\x0c' then ['\\', 'f']
  else if c = '\x08' then ['\\', 'b']
  else if 0x20 ≤ c.toNat ∧ c.toNat < 0x7F then [c]
  else if c.toNat < 0x10000 then codeEscape c.toNat
  else
    codeEscape (0xD800 + (c.toNat - 0x10000) / 0x400) ++
      codeEscape (0xDC00 + (c.toNat - 0x10000) % 0x400)

/-- **The literal of a text.** -/
def writeString (s : String) : List Char := '"' :: s.toList.flatMap writeChar ++ ['"']

/-- The character that an escape of one letter stands for. -/
def escaped? (c : Char) : Option Char :=
  if c = '"' ∨ c = '\\' ∨ c = '/' then some c
  else if c = 'b' then some '\x08'
  else if c = 'f' then some '\x0c'
  else if c = 'n' then some '\n'
  else if c = 'r' then some '\r'
  else if c = 't' then some '\t'
  else none

/-- The value of four hexadecimal digits. -/
def code? (a b c d : Char) : Option Nat := do
  some ((((← hexDigit? a) * 16 + (← hexDigit? b)) * 16 + (← hexDigit? c)) * 16 + (← hexDigit? d))

/-- Whether a code is the first half of a pair. -/
def isHighHalf (n : Nat) : Bool := 0xD800 ≤ n && n < 0xDC00

/-- Whether a code is the second half of a pair. -/
def isLowHalf (n : Nat) : Bool := 0xDC00 ≤ n && n < 0xE000

/-- Codes, last one first, with one more. The second half of a pair after the first one makes the
    code point of the pair. -/
def pushCode (codes : List Nat) (n : Nat) : List Nat :=
  match codes with
  | high :: before =>
    if isHighHalf high && isLowHalf n then
      (0x10000 + (high - 0xD800) * 0x400 + (n - 0xDC00)) :: before
    else n :: high :: before
  | [] => [n]

/-- The character of a code. A half without its partner is no character; the replacement character
    stands for it. -/
def codeChar (n : Nat) : Char :=
  if isHighHalf n || isLowHalf n then '\uFFFD' else Char.ofNat n

/-- The text of codes, last one first. -/
def codesText (codes : List Nat) : String := String.ofList (codes.reverse.map codeChar)

/-- **Reads a literal up to its closing mark.** `opening` is the count of characters from the
    opening mark on, and `codes` what has been read so far, last one first. A character at least
    has to follow an escape by code, as the closing mark is still to come. -/
def readString (opening : Nat) (codes : List Nat) : List Char → Except Flaw (String × List Char)
  | [] => .error ⟨.unclosedString, opening⟩
  | c :: cs =>
    if c = '"' then .ok (codesText codes, cs)
    else if c = '\\' then
      match cs with
      | [] => .error ⟨.unclosedString, opening⟩
      | e :: es =>
        if e = 'u' then
          match es with
          | h₁ :: h₂ :: h₃ :: h₄ :: rest =>
            match code? h₁ h₂ h₃ h₄ with
            | some n =>
              if rest.isEmpty then .error ⟨.badCodeEscape, es.length + 1⟩
              else readString opening (pushCode codes n) rest
            | none => .error ⟨.badCodeEscape, es.length + 1⟩
          | _ => .error ⟨.badCodeEscape, es.length + 1⟩
        else match escaped? e with
          | some x => readString opening (pushCode codes x.toNat) es
          | none => .error ⟨.badEscape, cs.length + 1⟩
    else if c.toNat < 0x20 then .error ⟨.controlCharacter, cs.length + 1⟩
    else readString opening (pushCode codes c.toNat) cs

end IamInventory.Json
