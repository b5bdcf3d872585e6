import IamInventory.Text.Blank
import IamInventory.Text.Digit

/-!
# Integers in decimal — writing and reading

  An integer is written with the fewest digits. It is read from a text that may have blanks around
  it, a sign before it, single underscores between its digits, and digits of any script. No text
  of more than `maxDigits` digits is an integer. Writing has no such limit here: an integer of any
  number of digits is written, also where a runtime that keeps the limit for both directions would
  refuse to.

* **`integerText`** — the digits of an integer.
* **`plainNumber?`** — the characters of a number in a plain form: no blanks, ASCII digits, no
  underscores.
* **`readInteger?`** — the integer a text stands for.
* **`digitExcess?`** — how many digits a text has, if they are too many for an integer.
-/

namespace IamInventory.Number

open IamInventory.Text

/-- The digits of an integer, after a minus sign if it is negative. -/
def integerChars (n : Int) : List Char :=
  if n < 0 then '-' :: Nat.toDigits 10 n.natAbs else Nat.toDigits 10 n.natAbs

/-- The digits of an integer as a text, however many they are: the limit of `maxDigits` is on
    reading only. -/
def integerText (n : Int) : String := String.ofList (integerChars n)

/-- The most digits that an integer may be read from. -/
def maxDigits : Nat := 4300

/-- The words about an integer of too many digits, with their count where it is told. -/
def digitLimitText (count : Option Nat) : String :=
  s!"Exceeds the limit ({maxDigits} digits) for integer string conversion" ++
    (count.elim "" fun n => s!": value has {n} digits") ++
    "; use sys.set_int_max_str_digits() to increase the limit"

/-- A character of a number in ASCII: a digit of another script as the digit `0` to `9` of the
    same value, every other character as itself. -/
def plainDigit (c : Char) : Char :=
  match digit? c with
  | some d => digitChar d
  | none => c

/-- The characters without the underscores that stand between digits; nothing if an underscore
    stands elsewhere. `before` is whether a digit comes right before. -/
def dropUnderscores (before : Bool) : List Char → Option (List Char)
  | [] => some []
  | '_' :: c :: cs =>
    if before && c.isDigit then (dropUnderscores true cs).map (c :: ·) else none
  | '_' :: [] => none
  | c :: cs => (dropUnderscores c.isDigit cs).map (c :: ·)

/-- The characters of a number without blanks around it, in ASCII digits, and without underscores;
    nothing if an underscore stands where none may. -/
def plainNumber? (s : String) : Option (List Char) :=
  dropUnderscores false ((stripNumber s.toList).map plainDigit)

/-- Takes a sign off: whether it was a minus, and what follows. -/
def takeSign : List Char → Bool × List Char
  | '-' :: cs => (true, cs)
  | '+' :: cs => (false, cs)
  | cs => (false, cs)

/-- The value of digits, with a sign. -/
def signedDigits (negative : Bool) (ds : List Char) : Int :=
  if negative then -(Nat.ofDigitChars 10 ds 0 : Int) else Nat.ofDigitChars 10 ds 0

/-- **The integer that a text stands for.** -/
def readInteger? (s : String) : Option Int := do
  let (negative, ds) := takeSign (← plainNumber? s)
  if ds ≠ [] ∧ ds.all Char.isDigit ∧ ds.length ≤ maxDigits then
    some (signedDigits negative ds)
  else none

/-- **How many digits a text has, if they are too many for an integer.** Only the digits that come
    first are looked at, zeros among them; what follows them may be anything. -/
def digitExcess? (s : String) : Option Nat := do
  let (_, cs) := takeSign ((stripNumber s.toList).map plainDigit)
  let ds ← dropUnderscores false (cs.takeWhile fun c => c.isDigit || c == '_')
  if maxDigits < ds.length then some ds.length else none

end IamInventory.Number
