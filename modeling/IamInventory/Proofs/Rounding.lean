import Mathlib.Algebra.Order.Field.Rat
import IamInventory.Number.Binary64

/-!
# Rounding — numbers of the format stay in order

  A product is rounded to a number of the format, and it may be rounded down. But it is not rounded
  past a number that the format holds: what reaches such a number reaches it after rounding, too.
  So a number is never made smaller by a factor that is not below one, however often it is applied.

* **`Binary64.toRat?`** — the rational number that a floating-point number is.
* **`Binary64.le_roundSteps`** — rounding does not fall short of a number that the format holds.
* **`Binary64.exists_rank_mul`** — a factor that is not below one makes nothing smaller.
-/

namespace IamInventory.Number

/-- What a quotient reaches is reached by the rounded quotient. -/
theorem le_divNearest {a b m : Nat} (hb : 0 < b) (h : m * b ≤ a) : m ≤ divNearest a b := by
  have hq : m ≤ a / b := (Nat.le_div_iff_mul_le hb).mpr h
  simp only [divNearest]
  split
  · exact hq
  · exact Nat.le_succ_of_le hq

namespace Binary64

/-! ## Rounded counts of steps -/

/-- **Rounding does not fall short of a count that the format holds.** -/
theorem le_roundSteps {u a b : Nat} (hu : Fits u) (hb : 0 < b) (h : u * b ≤ a) :
    u ≤ roundSteps a b := by
  simp only [roundSteps]
  -- the last place of the result divides every count that is not rounded to one below it
  have reached {w : Nat} (hw : w * b ≤ a) (hd : Nat.pow 2 ((a / b).log2 - 52) ∣ w) :
      w ≤ divNearest a (b * Nat.pow 2 ((a / b).log2 - 52)) * Nat.pow 2 ((a / b).log2 - 52) := by
    obtain ⟨m, rfl⟩ := hd
    have hplace : 0 < b * Nat.pow 2 ((a / b).log2 - 52) :=
      Nat.mul_pos hb (Nat.pow_pos Nat.two_pos)
    rw [Nat.mul_comm]
    refine Nat.mul_le_mul_right _ (le_divNearest hplace ?_)
    calc m * (b * Nat.pow 2 ((a / b).log2 - 52))
      _ = Nat.pow 2 ((a / b).log2 - 52) * m * b := by
        rw [Nat.mul_comm b, ← Nat.mul_assoc, Nat.mul_comm m]
      _ ≤ a := hw
  have hq : u ≤ a / b := (Nat.le_div_iff_mul_le hb).mpr h
  by_cases hu₀ : u = 0
  · subst hu₀
    exact Nat.zero_le _
  have hq₀ : a / b ≠ 0 := fun hq₀ => hu₀ (Nat.le_zero.mp (hq₀ ▸ hq))
  have hlog : u.log2 ≤ (a / b).log2 :=
    (Nat.le_log2 hq₀).mpr (Nat.le_trans (Nat.log2_self_le hu₀) hq)
  rcases Nat.lt_or_eq_of_le hlog with hlt | heq
  -- the quotient has more bits: the power of two at its front lies between
  · have hfront : Nat.pow 2 (a / b).log2 ≤ a / b := Nat.log2_self_le hq₀
    refine Nat.le_trans ?_ (reached ((Nat.le_div_iff_mul_le hb).mp hfront)
      (Nat.pow_dvd_pow 2 (Nat.sub_le _ _)))
    exact Nat.le_of_lt ((Nat.log2_lt hu₀).mp hlt)
  · exact reached h (heq ▸ hu.2)

theorem roundSteps_zero {b : Nat} (hb : 0 < b) : roundSteps 0 b = 0 := by
  have hplace : 0 < b * Nat.pow 2 ((0 / b).log2 - 52) := Nat.mul_pos hb (Nat.pow_pos Nat.two_pos)
  simp only [roundSteps, divNearest, Nat.zero_div, Nat.zero_mod] at hplace ⊢
  rw [if_pos (Or.inl hplace), Nat.zero_mul]

theorem bound_pos : 0 < bound := by
  unfold bound
  generalize 2098 = n
  exact Nat.pow_pos Nat.two_pos

theorem fits_zero : Fits 0 := ⟨bound_pos, Nat.dvd_zero _⟩

/-! ## The order of products and of the lesser number -/

/-- **A factor that is not below one makes nothing smaller** of a number that is not below zero. -/
theorem exists_rank_mul {a b : Binary64} {x : Int} (ha : a.rank = some x) (hx : 0 ≤ x)
    (hx' : x < bound) {y : Int} (hb : b.rank = some y) (hy : unit ≤ y) (hy' : y < bound) :
    ∃ z, (a.mul b).rank = some z ∧ x ≤ z := by
  have hunit : 0 < (unit : Int) := Int.natCast_pos.mpr unit_pos
  cases a with
  | nan => cases ha
  | infinite s =>
    cases s <;> simp only [rank, Option.some.injEq, if_true] at ha <;> omega
  | finite s u hu =>
    cases b with
    | nan => cases hb
    | infinite t =>
      cases t <;> simp only [rank, Option.some.injEq, if_true] at hb <;> omega
    | finite t v hv =>
      simp only [rank, Option.some.injEq] at ha hb
      -- the factor is positive, and the number is so or is a zero of either sign
      obtain rfl : t = false := by
        cases t with
        | false => rfl
        | true =>
          have : signed true v = -(v : Int) := rfl
          omega
      have hv₁ : unit ≤ v := by
        have : signed false v = (v : Int) := rfl
        omega
      have hround : u ≤ roundSteps (u * v) unit :=
        le_roundSteps hu unit_pos (Nat.mul_le_mul_left u hv₁)
      simp only [mul]
      cases s with
      | false =>
        have hx₁ : (u : Int) = x := ha
        simp only [ofSteps]
        split
        · refine ⟨roundSteps (u * v) unit, rfl, ?_⟩
          omega
        · exact ⟨bound, rfl, Int.le_of_lt hx'⟩
      | true =>
        have hx₁ : -(u : Int) = x := ha
        obtain rfl : u = 0 := by omega
        rw [Nat.zero_mul, roundSteps_zero unit_pos, ofSteps, dif_pos fits_zero]
        exact ⟨0, rfl, by omega⟩

theorem rank_lesser {a b : Binary64} {x y : Int} (ha : a.rank = some x) (hb : b.rank = some y) :
    (a.lesser b).rank = some (min x y) := by
  simp only [lesser, less, ha, hb, decide_eq_true_eq]
  split
  · next h => rw [hb, Int.min_eq_right (Int.le_of_lt h)]
  · next h => rw [ha, Int.min_eq_left (Int.not_lt.mp h)]

/-! ## Rational numbers -/

/-- **The rational number that a floating-point number is**, if it is finite. -/
def toRat? : Binary64 → Option ℚ
  | .finite s u _ => some ((signed s u : ℚ) / unit)
  | _ => none

theorem rank_of_toRat? {a : Binary64} {q : ℚ} (h : a.toRat? = some q) :
    ∃ x : Int, a.rank = some x ∧ x.natAbs < bound ∧ q = (x : ℚ) / unit := by
  cases a with
  | nan => cases h
  | infinite s => cases h
  | finite s u hu =>
    refine ⟨signed s u, rfl, ?_, (Option.some.inj h).symm⟩
    have habs : (signed s u).natAbs = u := by cases s <;> simp [signed]
    rw [habs]
    exact hu.1

theorem toRat?_of_rank {a : Binary64} {x : Int} (h : a.rank = some x) (hx : x.natAbs < bound) :
    a.toRat? = some ((x : ℚ) / unit) := by
  cases a with
  | nan => cases h
  | infinite s =>
    cases s <;> simp only [rank, Option.some.injEq, if_true] at h <;> omega
  | finite s u hu =>
    obtain rfl : signed s u = x := Option.some.inj h
    rfl

end Binary64

end IamInventory.Number
