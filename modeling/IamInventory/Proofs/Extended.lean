import Mathlib.Algebra.Order.Field.Rat
import Mathlib.Algebra.Order.Ring.Cast
import Mathlib.Algebra.Order.Monoid.Unbundled.WithTop
import IamInventory.Proofs.Rounding
import IamInventory.Value.Order

/-!
# Extended numbers — what numbers are worth, exactly

  A floating-point number is a rational number or an infinity, unless it is the undefined one, and
  every number of another kind is rational. Comparisons are those of the numbers themselves: one
  holds if both sides are numbers and these are in the order. So the undefined number is in no order
  with anything, and a rule that objects to what is less does not object to it.

* **`Binary64.extended?`**, **`Value.extended?`** — the number that something is.
* **`Binary64.less_iff`** — a floating-point number is less if its number is.
* **`Value.greater?_eq_false_iff`** — a number that is not greater is at most as great, or one of
  the two is undefined.
* **`Value.isBelow?_eq_false_iff`** — what is not below an integer is at least as great, or
  undefined.
-/

namespace IamInventory

open Number

/-- A rational number or an infinity. -/
abbrev Extended : Type := WithBot (WithTop ℚ)

/-- A rational number as an extended one. -/
def Extended.ofRat (q : ℚ) : Extended := ((q : WithTop ℚ) : Extended)

/-- An integer as an extended number. -/
def Extended.ofInt (n : ℤ) : Extended := .ofRat n

theorem Extended.ofRat_lt_ofRat {p q : ℚ} : Extended.ofRat p < .ofRat q ↔ p < q := by
  rw [Extended.ofRat, Extended.ofRat, WithBot.coe_lt_coe, WithTop.coe_lt_coe]

/-! ## Floating-point numbers -/

namespace Number.Binary64

/-- **The extended number that a floating-point number is**, none if it is undefined. -/
def extended? : Binary64 → Option Extended
  | .nan => none
  | .infinite true => some ⊥
  | .infinite false => some ⊤
  | .finite s u _ => some (.ofRat (signed s u / unit))

theorem extended?_eq_none_iff {a : Binary64} : a.extended? = none ↔ a = .nan := by
  cases a with
  | nan => exact ⟨fun _ => rfl, fun _ => rfl⟩
  | infinite s => cases s <;> exact ⟨nofun, nofun⟩
  | finite s u hu => exact ⟨nofun, nofun⟩

theorem exists_extended? {a : Binary64} (h : a ≠ .nan) : ∃ x, a.extended? = some x :=
  Option.ne_none_iff_exists'.mp fun hnone => h (extended?_eq_none_iff.mp hnone)

theorem unit_pos_rat : (0 : ℚ) < unit := Nat.cast_pos.mpr unit_pos

/-- Counts of steps are in the order of the numbers that they make. -/
theorem ofRat_div_unit_lt {m n : ℤ} :
    Extended.ofRat (m / unit) < .ofRat (n / unit) ↔ m < n := by
  rw [Extended.ofRat_lt_ofRat, div_lt_div_iff_of_pos_right unit_pos_rat, Int.cast_lt]

theorem signed_lt_bound {s : Bool} {u : Nat} (hu : Fits u) :
    -(bound : Int) < signed s u ∧ signed s u < bound := by
  have hlt : (u : Int) < bound := Int.ofNat_lt.mpr hu.1
  have hnonneg : (0 : Int) ≤ u := Int.natCast_nonneg u
  cases s with
  | false =>
    show -(bound : Int) < u ∧ (u : Int) < bound
    omega
  | true =>
    show -(bound : Int) < -u ∧ -(u : Int) < bound
    omega

/-- How the place of a number and the number itself are told from each other. -/
inductive Stands : Int → Extended → Prop
  | lowest : Stands (-bound) ⊥
  | greatest : Stands bound ⊤
  | between {m : Int} (hlow : -(bound : Int) < m) (hgreat : m < bound) :
    Stands m (.ofRat (m / unit))

theorem stands_of_ne {a : Binary64} (h : a ≠ .nan) :
    ∃ m x, a.rank = some m ∧ a.extended? = some x ∧ Stands m x := by
  cases a with
  | nan => exact absurd rfl h
  | infinite s =>
    cases s with
    | true => exact ⟨_, _, rfl, rfl, .lowest⟩
    | false => exact ⟨_, _, rfl, rfl, .greatest⟩
  | finite s u hu =>
    have hrange := signed_lt_bound (s := s) hu
    exact ⟨_, _, rfl, rfl, .between hrange.1 hrange.2⟩

/-- **Places are in the order of the numbers.** -/
theorem Stands.lt_iff {m n : Int} {x y : Extended} (hm : Stands m x) (hn : Stands n y) :
    m < n ↔ x < y := by
  have hbound : (0 : Int) < bound := Int.natCast_pos.mpr bound_pos
  cases hm with
  | lowest =>
    cases hn with
    | lowest => exact ⟨fun h => absurd h (lt_irrefl _), fun h => absurd h (lt_irrefl _)⟩
    | greatest => exact ⟨fun _ => bot_lt_top, fun _ => by omega⟩
    | between hlow hgreat => exact ⟨fun _ => WithBot.bot_lt_coe _, fun _ => hlow⟩
  | greatest =>
    cases hn with
    | lowest => exact ⟨fun h => by omega, fun h => absurd h not_top_lt⟩
    | greatest => exact ⟨fun h => absurd h (lt_irrefl _), fun h => absurd h (lt_irrefl _)⟩
    | between hlow hgreat => exact ⟨fun h => by omega, fun h => absurd h not_top_lt⟩
  | between hlow hgreat =>
    cases hn with
    | lowest => exact ⟨fun h => by omega, fun h => absurd h not_lt_bot⟩
    | greatest => exact ⟨fun _ => WithBot.coe_lt_coe.mpr (WithTop.coe_lt_top _), fun _ => hgreat⟩
    | between hlow' hgreat' => exact ofRat_div_unit_lt.symm

/-- **A floating-point number is less if its number is**, and the undefined one never is. -/
theorem less_iff (a b : Binary64) :
    a.less b = true ↔ ∃ x ∈ a.extended?, ∃ y ∈ b.extended?, x < y := by
  by_cases ha : a = .nan
  · subst ha
    exact ⟨nofun, fun ⟨x, hx, _⟩ => nomatch hx⟩
  by_cases hb : b = .nan
  · subst hb
    constructor
    · intro h
      have hnone : a.less .nan = false := by cases a <;> rfl
      exact absurd (hnone.symm.trans h) Bool.false_ne_true
    · rintro ⟨x, -, y, hy, -⟩
      cases hy
  obtain ⟨m, x, hm, hx, hmx⟩ := stands_of_ne ha
  obtain ⟨n, y, hn, hy, hny⟩ := stands_of_ne hb
  simp only [less, hm, hn, decide_eq_true_eq, hmx.lt_iff hny, hx, hy, Option.mem_def,
    Option.some.injEq, exists_eq_left']

/-- What is not less than a number is undefined, or that number is, or it is at least as great. -/
theorem less_eq_false_iff (a b : Binary64) : a.less b = false ↔
    b = .nan ∨ a = .nan ∨ ∃ y ∈ b.extended?, ∃ x ∈ a.extended?, y ≤ x := by
  rw [← Bool.not_eq_true, less_iff]
  by_cases hb : b = .nan
  · subst hb
    exact ⟨fun _ => Or.inl rfl, fun _ ⟨_, _, _, hy, _⟩ => nomatch hy⟩
  by_cases ha : a = .nan
  · subst ha
    exact ⟨fun _ => Or.inr (Or.inl rfl), fun _ ⟨_, hx, _⟩ => nomatch hx⟩
  obtain ⟨x, hx⟩ := exists_extended? ha
  obtain ⟨y, hy⟩ := exists_extended? hb
  simp only [ha, hb, hx, hy, Option.mem_def, Option.some.injEq, exists_eq_left', not_lt, false_or]

theorem less_integer_eq_false_iff {a b : Binary64} {n : ℤ} (hb : b.extended? = some (.ofInt n)) :
    a.less b = false ↔ a = .nan ∨ ∃ x ∈ a.extended?, .ofInt n ≤ x := by
  have hdefined : b ≠ .nan := by
    rintro rfl
    cases hb
  rw [less_eq_false_iff]
  simp only [hdefined, hb, Option.mem_def, Option.some.injEq, exists_eq_left', false_or]

/-- The greater of two numbers is worth the greater of what they are worth. -/
theorem extended?_greater {a b : Binary64} {x y : Extended} (hx : a.extended? = some x)
    (hy : b.extended? = some y) : (a.greater b).extended? = some (max x y) := by
  have hless := less_iff a b
  simp only [hx, hy, Option.mem_def, Option.some.injEq, exists_eq_left'] at hless
  rw [greater]
  by_cases h : x < y
  · rw [if_pos (hless.mpr h), max_eq_right h.le, hy]
  · rw [if_neg (fun hl => h (hless.mp hl)), max_eq_left (not_lt.mp h), hx]

theorem extended?_of_rank {a : Binary64} {m : Int} (h : a.rank = some m)
    (hm : m.natAbs < bound) : a.extended? = some (.ofRat (m / unit)) := by
  have hrat := toRat?_of_rank h hm
  cases a with
  | nan => cases hrat
  | infinite s => cases hrat
  | finite s u hu => exact congrArg (Option.map Extended.ofRat) hrat

theorem extended?_zero : (ofInt 0).extended? = some (.ofInt 0) := by
  have hrank : (ofInt 0).rank = some 0 := by decide +kernel
  rw [extended?_of_rank hrank bound_pos, Int.cast_zero, zero_div, Extended.ofInt, Int.cast_zero]

theorem extended?_one : (ofInt 1).extended? = some (.ofInt 1) := by
  have hrank : (ofInt 1).rank = some (unit : Int) := by decide +kernel
  have hlt : (unit : Int).natAbs < bound := by decide +kernel
  rw [extended?_of_rank hrank hlt, Int.cast_natCast, div_self unit_pos_rat.ne', Extended.ofInt,
    Int.cast_one]

end Number.Binary64

/-! ## Values -/

namespace Value

/-- Whether a value is a number; truth values count as one and zero. -/
def IsNumber (v : Value) : Prop := v.place?.isSome

theorem isNumber_int (n : Int) : (Value.int n).IsNumber := rfl

theorem isNumber_real (a : Binary64) : (Value.real a).IsNumber := by
  cases a <;> exact rfl

/-- **The extended number that a value is**, if it is a number and not the undefined one. -/
def extended? : Value → Option Extended
  | .bool b => some (.ofInt (if b then 1 else 0))
  | .int n => some (.ofInt n)
  | .real x => x.extended?
  | _ => none

/-- A number is undefined or worth something. -/
theorem IsNumber.cases {v : Value} (h : v.IsNumber) :
    v = .real .nan ∨ ∃ x, v.extended? = some x := by
  cases v with
  | bool b => exact Or.inr ⟨_, rfl⟩
  | int n => exact Or.inr ⟨_, rfl⟩
  | real a =>
    by_cases ha : a = .nan
    · exact Or.inl (by rw [ha])
    · exact Or.inr (Binary64.exists_extended? ha)
  | _ => cases h

theorem isNumber_of_extended? {v : Value} {x : Extended} (h : v.extended? = some x) :
    v.IsNumber := by
  cases v with
  | bool b => exact rfl
  | int n => exact rfl
  | real a => exact isNumber_real a
  | _ => cases h

/-- What is undefined or worth something is a number. -/
theorem isNumber_of_worth {v : Value} {p : Extended → Prop}
    (h : v = .real .nan ∨ ∃ x ∈ v.extended?, p x) : v.IsNumber := by
  rcases h with rfl | ⟨x, hx, -⟩
  · exact rfl
  · exact isNumber_of_extended? hx

/-! ## Places of values -/

namespace Place

/-- How the place of a value and the number itself are told from each other. -/
inductive Stands : Place → Extended → Prop
  | lowest : Stands (.at (-1) 0) ⊥
  | greatest : Stands (.at 1 0) ⊤
  | between (m : Int) : Stands (.at 0 m) (.ofRat (m / Binary64.unit))

/-- **A place is beyond another one** if its number is greater. -/
theorem Stands.greater_eq {p q : Place} {x y : Extended} (hp : p.Stands x) (hq : q.Stands y) :
    p.greater q = decide (y < x) := by
  cases hp with
  | lowest =>
    cases hq with
    | lowest => exact (decide_eq_false (lt_irrefl _)).symm
    | greatest => exact (decide_eq_false not_top_lt).symm
    | between n => exact (decide_eq_false not_lt_bot).symm
  | greatest =>
    cases hq with
    | lowest => exact (decide_eq_true bot_lt_top).symm
    | greatest => exact (decide_eq_false (lt_irrefl _)).symm
    | between n => exact (decide_eq_true (WithBot.coe_lt_coe.mpr (WithTop.coe_lt_top _))).symm
  | between m =>
    cases hq with
    | lowest => exact (decide_eq_true (WithBot.bot_lt_coe _)).symm
    | greatest => exact (decide_eq_false not_top_lt).symm
    | between n =>
      -- neither is outside, so the steps decide
      show decide (n < m) = _
      exact decide_eq_decide.mpr Binary64.ofRat_div_unit_lt.symm

end Place

/-- An integer is worth as many steps as it has units. -/
theorem ofInt_eq_steps (n : Int) :
    Extended.ofInt n = .ofRat ((n * Binary64.unit : Int) / Binary64.unit) := by
  rw [Extended.ofInt, Int.cast_mul, Int.cast_natCast,
    mul_div_cancel_right₀ _ Binary64.unit_pos_rat.ne']

theorem stands_ofInt (n : Int) : (Place.at 0 (n * Binary64.unit)).Stands (.ofInt n) := by
  rw [ofInt_eq_steps]
  exact .between _

/-- What is worth something has a place. -/
theorem exists_place? {v : Value} {x : Extended} (h : v.extended? = some x) :
    ∃ p, v.place? = some p ∧ p.Stands x := by
  cases v with
  | bool b =>
    obtain rfl : .ofInt (if b then 1 else 0) = x := Option.some.inj h
    have hplace : (Value.bool b).place? =
        some (.at 0 ((if b then 1 else 0 : Int) * Binary64.unit)) := by
      cases b with
      | true =>
        show some (Place.at 0 (Binary64.unit : Int)) = _
        rw [if_pos rfl, Int.one_mul]
      | false =>
        show some (Place.at 0 0) = _
        rw [if_neg Bool.false_ne_true, Int.zero_mul]
    exact ⟨_, hplace, stands_ofInt _⟩
  | int n =>
    obtain rfl : .ofInt n = x := Option.some.inj h
    exact ⟨_, place?_int n, stands_ofInt n⟩
  | real a =>
    cases a with
    | nan => cases h
    | infinite s =>
      cases s with
      | true =>
        obtain rfl : ⊥ = x := Option.some.inj h
        exact ⟨_, rfl, .lowest⟩
      | false =>
        obtain rfl : ⊤ = x := Option.some.inj h
        exact ⟨_, rfl, .greatest⟩
    | finite s u hu =>
      obtain rfl : .ofRat (Binary64.signed s u / Binary64.unit) = x := Option.some.inj h
      exact ⟨_, rfl, .between _⟩
  | _ => cases h

/-! ## Comparisons of values -/

/-- Numbers are compared by their places. -/
theorem greater?_of_place? {v w : Value} {p q : Place} (hv : v.place? = some p)
    (hw : w.place? = some q) : v.greater? w = some (p.greater q) := by
  rw [greater?.eq_def]
  split
  iterate 4 cases hv
  rw [hv, hw]

/-- **A number is greater than another one** if it is worth more. -/
theorem greater?_of_extended? {v w : Value} {x y : Extended} (hv : v.extended? = some x)
    (hw : w.extended? = some y) : v.greater? w = some (decide (y < x)) := by
  obtain ⟨p, hp, hpx⟩ := exists_place? hv
  obtain ⟨q, hq, hqy⟩ := exists_place? hw
  rw [greater?_of_place? hp hq, hpx.greater_eq hqy]

/-- Nothing is greater than the undefined number, and it is not greater than anything. -/
theorem greater?_of_nan {v w : Value} (hv : v.IsNumber) (hw : w.IsNumber)
    (h : v = .real .nan ∨ w = .real .nan) : v.greater? w = some false := by
  obtain ⟨p, hp⟩ := Option.isSome_iff_exists.mp hv
  obtain ⟨q, hq⟩ := Option.isSome_iff_exists.mp hw
  rw [greater?_of_place? hp hq]
  rcases h with rfl | rfl
  · obtain rfl : .undefined = p := Option.some.inj hp
    rfl
  · obtain rfl : .undefined = q := Option.some.inj hq
    cases p <;> rfl

/-- Numbers are compared with numbers, and with nothing else. -/
theorem IsNumber.isSome_greater?_iff {v w : Value} (hv : v.IsNumber) :
    (v.greater? w).isSome ↔ w.IsNumber := by
  obtain ⟨p, hp⟩ := Option.isSome_iff_exists.mp hv
  constructor
  · intro h
    by_contra hw
    have hnone : w.place? = none := Option.not_isSome_iff_eq_none.mp hw
    rw [greater?.eq_def] at h
    split at h
    iterate 4 cases hp
    rw [hp, hnone] at h
    cases h
  · intro hw
    obtain ⟨q, hq⟩ := Option.isSome_iff_exists.mp hw
    rw [greater?_of_place? hp hq]
    rfl

/-- **A number that is not greater than another one** is at most as great, or one of the two is
    undefined. -/
theorem greater?_eq_false_iff {v w : Value} (hv : v.IsNumber) (hw : w.IsNumber) :
    v.greater? w = some false ↔ v = .real .nan ∨ w = .real .nan ∨
      ∃ x ∈ v.extended?, ∃ y ∈ w.extended?, x ≤ y := by
  rcases hv.cases with rfl | ⟨x, hx⟩
  · exact ⟨fun _ => Or.inl rfl, fun _ => greater?_of_nan hv hw (Or.inl rfl)⟩
  rcases hw.cases with rfl | ⟨y, hy⟩
  · exact ⟨fun _ => Or.inr (Or.inl rfl), fun _ => greater?_of_nan hv hw (Or.inr rfl)⟩
  have hv' : v ≠ .real .nan := by
    rintro rfl
    cases hx
  have hw' : w ≠ .real .nan := by
    rintro rfl
    cases hy
  simp only [greater?_of_extended? hx hy, hv', hw', hx, hy, Option.some.injEq,
    decide_eq_false_iff_not, not_lt, Option.mem_def, exists_eq_left', false_or]

/-- A value that is compared with an integer is a number. -/
theorem isNumber_of_isBelow? {v : Value} {n : Int} {b : Bool} (h : v.isBelow? n = some b) :
    v.IsNumber := by
  refine (isNumber_int n).isSome_greater?_iff.mp ?_
  rw [isBelow?] at h
  rw [h]
  rfl

/-- Numbers are compared with integers. -/
theorem IsNumber.isSome_isBelow? {v : Value} (h : v.IsNumber) (n : Int) :
    (v.isBelow? n).isSome := (isNumber_int n).isSome_greater?_iff.mpr h

/-- What is not below an integer is undefined, or a number that is at least as great. -/
theorem isBelow?_eq_false_iff (v : Value) (n : Int) : v.isBelow? n = some false ↔
    v = .real .nan ∨ ∃ x ∈ v.extended?, .ofInt n ≤ x := by
  have hworth : (Value.int n).extended? = some (.ofInt n) := rfl
  constructor
  · intro h
    have hsides := (greater?_eq_false_iff (isNumber_int n) (isNumber_of_isBelow? h)).mp h
    simpa [hworth] using hsides
  · intro h
    refine (greater?_eq_false_iff (isNumber_int n) (isNumber_of_worth h)).mpr ?_
    simpa [hworth] using h

end Value

end IamInventory
