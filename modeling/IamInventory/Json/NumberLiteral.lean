import IamInventory.Json.Flaw
import IamInventory.Number.Scientific
import IamInventory.Number.Shortest
import IamInventory.Value

/-!
# Number literals — integers and floating-point numbers in JSON

  A literal has a whole part without needless zeros, and then as much of a fraction and of a power
  of ten as is complete. Without either it is an integer, which has a limit on its digits.

* **`readNumber?`** — the number at the front of a text, and what follows it.
* **`writeReal`** — the literal of a floating-point number.
-/

namespace IamInventory.Json

open Number

/-- Takes a minus sign off. -/
def takeMinus : List Char → Bool × List Char
  | '-' :: cs => (true, cs)
  | cs => (false, cs)

/-- Takes the whole part off: a zero, or digits that start with another one. -/
def takeWhole? : List Char → Option (List Char × List Char)
  | [] => none
  | c :: cs =>
    if c = '0' then some ([c], cs)
    else if c.isDigit then some (Scientific.takeDigits (c :: cs))
    else none

/-- Takes a point and digits off, if at least one digit follows the point. -/
def takeFraction? : List Char → Option (List Char × List Char)
  | '.' :: cs =>
    let (ds, rest) := Scientific.takeDigits cs
    if ds = [] then none else some (ds, rest)
  | _ => none

/-- Takes a power of ten off, if it has at least one digit. -/
def takePower? : List Char → Option (Int × List Char)
  | [] => none
  | c :: cs =>
    if c = 'e' ∨ c = 'E' then
      let (negative, cs) := takeSign cs
      let (ds, rest) := Scientific.takeDigits cs
      if ds = [] then none else some (signedDigits negative ds, rest)
    else none

/-- **Reads the number at the front of a text**; nothing if there is none. -/
def readNumber? (text : List Char) : Option (Except Flaw (Value × List Char)) := do
  let (negative, cs) := takeMinus text
  let (whole, afterWhole) ← takeWhole? cs
  let fraction := takeFraction? afterWhole
  let afterFraction := (fraction.map Prod.snd).getD afterWhole
  let power := takePower? afterFraction
  if fraction.isNone ∧ power.isNone then
    if maxDigits < whole.length then some (.error ⟨.tooManyDigits whole.length, text.length⟩)
    else some (.ok (.int (signedDigits negative whole), afterWhole))
  else
    let places := (fraction.map Prod.fst).getD []
    let literal : Scientific :=
      ⟨negative, whole ++ places, (power.map Prod.fst).getD 0 - places.length⟩
    some (.ok (.real literal.value, (power.map Prod.snd).getD afterFraction))

/-- The literal of a floating-point number; the numbers that are not finite have names. -/
def writeReal : Binary64 → List Char
  | .nan => "NaN".toList
  | .infinite s => if s then "-Infinity".toList else "Infinity".toList
  | x => binary64Chars x

end IamInventory.Json
