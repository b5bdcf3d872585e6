import IamInventory.Number.Integer
import IamInventory.Number.Binary64

/-!
# Scientific literals — reading floating-point numbers from decimal text

  A literal has digits, perhaps a point among or before or after them, and perhaps a power of ten.
  Its value is exact; the number read is the nearest one that the format holds.

* **`Scientific.value`** — the number nearest to a literal.
* **`readBinary64?`** — the number a text stands for: a literal, or a name of infinity or of the
  undefined number, between blanks and with digits of any script.
-/

namespace IamInventory.Number

/-- A sign, digits, and the power of ten that the last digit counts. -/
structure Scientific where
  negative : Bool
  digits : List Char
  exponent : Int
deriving DecidableEq, Repr

namespace Scientific

/-- **The number nearest to a literal.** A literal so large or so small that its power of ten alone
    decides is not multiplied out. -/
def value (s : Scientific) : Binary64 :=
  let d := Nat.ofDigitChars 10 s.digits 0
  let size := s.exponent + (Nat.toDigits 10 d).length
  if d = 0 ∨ size < -330 then .ofSteps s.negative 0
  else if 330 < size then .infinite s.negative
  else if 0 ≤ s.exponent then .ofRatio s.negative (d * Nat.pow 10 s.exponent.toNat) 1
  else .ofRatio s.negative d (Nat.pow 10 (-s.exponent).toNat)

/-- Takes digits off the front. -/
def takeDigits (cs : List Char) : List Char × List Char :=
  (cs.takeWhile Char.isDigit, cs.dropWhile Char.isDigit)

/-- Takes the digits after a point off the front, none if no point comes first. -/
def takeFraction : List Char → List Char × List Char
  | '.' :: cs => takeDigits cs
  | cs => ([], cs)

/-- Reads a power of ten that has to be all that is left; no text is power zero. -/
def readExponent? : List Char → Option Int
  | [] => some 0
  | c :: cs =>
    if c = 'e' ∨ c = 'E' then
      let (negative, ds) := takeSign cs
      if ds ≠ [] ∧ ds.all Char.isDigit then some (signedDigits negative ds) else none
    else none

/-- Reads a whole text without a sign as a literal. -/
def read? (negative : Bool) (cs : List Char) : Option Scientific := do
  let (whole, rest) := takeDigits cs
  let (fraction, rest) := takeFraction rest
  let exponent ← readExponent? rest
  if whole = [] ∧ fraction = [] then none
  else some ⟨negative, whole ++ fraction, exponent - fraction.length⟩

end Scientific

/-- **The floating-point number that a text stands for.** -/
def readBinary64? (s : String) : Option Binary64 := do
  let (negative, cs) := takeSign (← plainNumber? s)
  let name := String.ofList (cs.map Char.toLower)
  if name = "inf" ∨ name = "infinity" then some (.infinite negative)
  else if name = "nan" then some .nan
  else (Scientific.read? negative cs).map Scientific.value

end IamInventory.Number
