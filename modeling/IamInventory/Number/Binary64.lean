/-!
# Binary64 — floating-point numbers as exact multiples of the least step

  Every finite number of the IEEE binary64 format is a whole number of steps of size 2^-1074, so a
  number is a sign and a count of steps that a 53-bit significand can hold. Results are rounded to
  the nearest such count, a tie to the even one, and a count beyond the largest is infinite.

* **`Binary64.ofRatio`** — the number nearest to a ratio.
* **`Binary64.mul`**, **`Binary64.add`** — product and sum.
* **`Binary64.less`**, **`Binary64.same`** — comparisons; with the undefined number each one fails.
-/

namespace IamInventory.Number

/-- The quotient rounded to the nearest integer, a tie to the even one. -/
def divNearest (a b : Nat) : Nat :=
  let q := a / b
  let r := a % b
  if 2 * r < b ∨ (2 * r = b ∧ q % 2 = 0) then q else q + 1

namespace Binary64

/-- The number of steps in one. -/
def unit : Nat := Nat.pow 2 1074

theorem unit_pos : 0 < unit := by
  unfold unit
  generalize 1074 = n
  exact Nat.pow_pos (by decide)

/-- The least count of steps beyond the largest finite number. -/
def bound : Nat := Nat.pow 2 2098

/-- A count of steps that the format holds: below the bound and with all but its 53 leading bits
    zero. -/
def Fits (u : Nat) : Prop := u < bound ∧ Nat.pow 2 (u.log2 - 52) ∣ u

instance (u : Nat) : Decidable (Fits u) := inferInstanceAs (Decidable (_ ∧ _))

/-- A ratio rounded to 53 leading bits. -/
def roundSteps (a b : Nat) : Nat :=
  let s := (a / b).log2 - 52
  divNearest a (b * Nat.pow 2 s) * Nat.pow 2 s

end Binary64

/-- A floating-point number: undefined, infinite, or a sign and a count of steps. -/
inductive Binary64 where
  | nan
  | infinite (negative : Bool)
  | finite (negative : Bool) (steps : Nat) (fits : Binary64.Fits steps)
deriving DecidableEq

namespace Binary64

/-- The number with the given count of steps, infinite if the format cannot hold it. -/
def ofSteps (negative : Bool) (u : Nat) : Binary64 :=
  if h : Fits u then .finite negative u h else .infinite negative

/-- **The number nearest to a ratio of naturals**, with a sign. -/
def ofRatio (negative : Bool) (a b : Nat) : Binary64 :=
  ofSteps negative (roundSteps (a * unit) b)

/-- The number nearest to an integer. -/
def ofInt (n : Int) : Binary64 := ofRatio (n < 0) n.natAbs 1

/-- The product. -/
def mul : Binary64 → Binary64 → Binary64
  | .nan, _ => .nan
  | _, .nan => .nan
  | .infinite s, .infinite t => .infinite (s != t)
  | .infinite s, .finite t u _ => if u = 0 then .nan else .infinite (s != t)
  | .finite s u _, .infinite t => if u = 0 then .nan else .infinite (s != t)
  | .finite s u _, .finite t v _ => ofSteps (s != t) (roundSteps (u * v) unit)

/-- A count of steps with a sign. -/
def signed (negative : Bool) (u : Nat) : Int := if negative then -u else u

/-- The sum. A sum of zero is negative only if both numbers are. -/
def add : Binary64 → Binary64 → Binary64
  | .nan, _ => .nan
  | _, .nan => .nan
  | .infinite s, .infinite t => if s = t then .infinite s else .nan
  | .infinite s, .finite _ _ _ => .infinite s
  | .finite _ _ _, .infinite t => .infinite t
  | .finite s u _, .finite t v _ =>
    let sum := signed s u + signed t v
    ofSteps (if sum = 0 then s && t else sum < 0) (roundSteps sum.natAbs 1)

/-- The place of a number in the order: its signed steps, the infinities just outside all finite
    numbers. The undefined number has no place. -/
def rank : Binary64 → Option Int
  | .nan => none
  | .infinite s => some (if s then -bound else bound)
  | .finite s u _ => some (signed s u)

/-- Whether the first number is smaller. -/
def less (a b : Binary64) : Bool :=
  match a.rank, b.rank with
  | some x, some y => x < y
  | _, _ => false

/-- Whether two numbers are equal; both zeros are. -/
def same (a b : Binary64) : Bool :=
  match a.rank, b.rank with
  | some x, some y => x == y
  | _, _ => false

/-- The second number if it is smaller, else the first. -/
def lesser (a b : Binary64) : Binary64 := if b.less a then b else a

/-- The second number if it is greater, else the first. -/
def greater (a b : Binary64) : Binary64 := if a.less b then b else a

/-- Whether the number is a zero of either sign. -/
def isZero (a : Binary64) : Bool := a.rank == some 0

end Binary64

end IamInventory.Number
