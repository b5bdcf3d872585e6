import IamInventory.Number.Integer
import IamInventory.Number.Binary64

/-!
# Shortest decimals — writing floating-point numbers

  A number is written with the fewest digits that read back as the same number; among those the
  nearest to it, and on a tie the even ones. The digits are found on the decimal grids of one to
  seventeen digits: of each grid only the two neighbours of the number can be nearest.

* **`Shortest.digits`** — the digits and the power of ten of the last one.
* **`binary64Text`** — the text of a number: positional from 10^-4 to below 10^16, with a power
  of ten elsewhere.
* **`fixedText`** — a number with a fixed count of places after the point.
-/

namespace IamInventory.Number

namespace Shortest

/-- `d · 10^e` steps of one as a ratio of naturals. -/
def ratio (d : Nat) (e : Int) : Nat × Nat :=
  if 0 ≤ e then (d * Nat.pow 10 e.toNat * Binary64.unit, 1)
  else (d * Binary64.unit, Nat.pow 10 (-e).toNat)

/-- Whether `d · 10^e` is read as the number with `u` steps. -/
def readsBack (u d : Nat) (e : Int) : Bool :=
  let (a, b) := ratio d e
  Binary64.roundSteps a b == u

/-- Whether `10^e` is at most the number with `u` steps. -/
def powerBelow (u : Nat) (e : Int) : Bool :=
  let (a, b) := ratio 1 e
  a ≤ u * b

/-- The power of ten of the leading digit of the number with `u` steps, from the count of its
    bits. -/
def leadingPower (u : Nat) : Int :=
  let e := ((u.log2 : Int) - 1074) * 30103 / 100000
  if powerBelow u (e + 1) then e + 1 else if powerBelow u e then e else e - 1

/-- The nearest of the two neighbours on the grid of multiples of `10^e` that read back, the even
    one on a tie. -/
def onGrid? (u : Nat) (e : Int) : Option (Nat × Int) :=
  let (a, b) := ratio 1 e
  let d := u * b / a
  let r := u * b % a
  match readsBack u d e, readsBack u (d + 1) e with
  | false, false => none
  | true, false => some (d, e)
  | false, true => some (d + 1, e)
  | true, true =>
    if 2 * r < a ∨ (2 * r = a ∧ d % 2 = 0) then some (d, e) else some (d + 1, e)

/-- **The shortest digits of the number with `u` steps**, with the power of ten of the last one. -/
def digits (u : Nat) : Nat × Int :=
  let top := leadingPower u
  ((List.range 17).findSome? fun (n : Nat) => onGrid? u (top - (n : Int))).getD (0, 0)

end Shortest

/-- Digits without the zeros at their end, one digit at least. -/
def trimZeros (ds : List Char) : List Char :=
  match (ds.reverse.dropWhile (· == '0')).reverse with
  | [] => ['0']
  | ds => ds

/-- The power of ten behind a mantissa: its sign, and at least two digits. -/
def exponentChars (e : Int) : List Char :=
  let ds := Nat.toDigits 10 e.natAbs
  'e' :: (if e < 0 then '-' else '+') :: (if ds.length < 2 then '0' :: ds else ds)

/-- Digits whose point stands after the first `point` of them, with at least one place. -/
def positional (ds : List Char) (point : Int) : List Char :=
  if point ≤ 0 then '0' :: '.' :: List.replicate (-point).toNat '0' ++ ds
  else if ds.length ≤ point then
    ds ++ List.replicate (point.toNat - ds.length) '0' ++ ['.', '0']
  else ds.take point.toNat ++ '.' :: ds.drop point.toNat

/-- A mantissa with its first digit before the point, and the power of ten. -/
def mantissaChars (ds : List Char) (e : Int) : List Char :=
  match ds with
  | [] => []
  | [d] => d :: exponentChars e
  | d :: rest => d :: '.' :: rest ++ exponentChars e

/-- The shortest text of a positive count of steps. -/
def stepsChars (u : Nat) : List Char :=
  if u = 0 then ['0', '.', '0']
  else
    let (d, e) := Shortest.digits u
    let all := Nat.toDigits 10 d
    let point := all.length + e
    let ds := trimZeros all
    if -4 < point ∧ point ≤ 16 then positional ds point else mantissaChars ds (point - 1)

/-- A minus sign for a negative number. -/
def signChars (negative : Bool) : List Char := if negative then ['-'] else []

/-- **The text of a floating-point number.** -/
def binary64Chars : Binary64 → List Char
  | .nan => "nan".toList
  | .infinite s => signChars s ++ "inf".toList
  | .finite s u _ => signChars s ++ stepsChars u

/-- The text of a floating-point number. -/
def binary64Text (x : Binary64) : String := String.ofList (binary64Chars x)

/-- **A number with a fixed count of places after the point**, rounded to the nearest, a tie to the
    even last digit. -/
def fixedText (places : Nat) : Binary64 → String
  | .nan => "nan"
  | .infinite s => String.ofList (signChars s ++ "inf".toList)
  | .finite s u _ =>
    let ds := Nat.toDigits 10 (divNearest (u * Nat.pow 10 places) Binary64.unit)
    let ds := List.replicate (places + 1 - ds.length) '0' ++ ds
    String.ofList (signChars s ++ ds.take (ds.length - places) ++
      '.' :: ds.drop (ds.length - places))

end IamInventory.Number
