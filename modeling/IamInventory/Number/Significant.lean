import IamInventory.Number.Shortest

/-!
# Significant digits — numbers rounded to a count of leading digits

  Some formats keep only so many digits of a number, counted from the first one that is not zero.
  The grid is chosen by the number itself, before it is rounded: where rounding carries past the
  first digit, the result is a power of ten and has one digit more, all but the first of them zero.

* **`significant`** — the digits that are kept, and the power of ten of the last one.
-/

namespace IamInventory.Number

/-- **The given count of leading digits of a number with `u` steps**, rounded to the nearest, a tie
    to the even last digit, with the power of ten of the last one. -/
def significant (count u : Nat) : Nat × Int :=
  let e := Shortest.leadingPower u - ((count - 1 : Nat) : Int)
  let (a, b) := Shortest.ratio 1 e
  (divNearest (u * b) a, e)

end IamInventory.Number
