import IamInventory.Proofs.Extended
import IamInventory.Settings

/-!
# Rules — what settings are like that no rule objects to

  Every way of making settings checks the same rules, so what the rules say is known of all settings
  that there are. The rules reject what is less, and the undefined number is less than nothing: each
  rule is satisfied, or one of the numbers that it compares is undefined.

  The bound on polls may be a number of any kind. It is only ever compared with counts, and so it
  comes to a count itself: the least one that reaches it, or none.

* **`RawSettings.Upheld`** — each rule is satisfied, unless one of its numbers is undefined.
* **`RawSettings.check_eq_ok_iff`**, **`Settings.check_eq_ok_iff`** — what a check of settings comes
  to.
* **`Settings.pollBound?`** — the bound on polls as a count.
* **`Settings.Passes.reached`** — which counts of polls reach the bound.
-/

namespace IamInventory

open Number

/-- The least count that is not less than a number, if there is one. -/
def Number.Binary64.ceiling? : Binary64 → Option Nat
  | .finite false u _ => some ((u + (Binary64.unit - 1)) / Binary64.unit)
  | _ => none

/-! ## The rules -/

namespace RawSettings

/-- **Whether settings satisfy each rule**, unless one of the numbers that it compares is
    undefined. -/
structure Upheld (s : RawSettings) : Prop where
  interval : s.pollInterval = .real .nan ∨ ∃ x ∈ s.pollInterval.extended?, .ofInt 0 ≤ x
  backoff : s.pollBackoff = .real .nan ∨ ∃ x ∈ s.pollBackoff.extended?, .ofInt 1 ≤ x
  number : s.maxPollInterval.IsNumber
  greatest : s.pollInterval = .real .nan ∨ s.maxPollInterval = .real .nan ∨
    ∃ x ∈ s.pollInterval.extended?, ∃ y ∈ s.maxPollInterval.extended?, x ≤ y
  polls : s.maxPollAttempts = .null ∨ s.maxPollAttempts = .real .nan ∨
    ∃ x ∈ s.maxPollAttempts.extended?, .ofInt 1 ≤ x
  tries : s.clientMaxAttempts = .real .nan ∨ ∃ x ∈ s.clientMaxAttempts.extended?, .ofInt 1 ≤ x

/-- **The rules let through what satisfies them**, and what is undefined. -/
theorem upheld_iff (s : RawSettings) : s.Upheld ↔ ∀ r ∈ s.rules, r.objects = some false := by
  have hpolls : (if s.maxPollAttempts.isNull then some false else s.maxPollAttempts.isBelow? 1) =
      some false ↔ s.maxPollAttempts = .null ∨ s.maxPollAttempts.isBelow? 1 = some false := by
    cases h : s.maxPollAttempts <;> simp [Value.isNull]
  simp only [rules, List.forall_mem_cons, hpolls]
  constructor
  · intro h
    have hinterval := (Value.isBelow?_eq_false_iff _ 0).mpr h.interval
    have hgreatest := (Value.greater?_eq_false_iff (Value.isNumber_of_isBelow? hinterval)
      h.number).mpr h.greatest
    exact ⟨hinterval, (Value.isBelow?_eq_false_iff _ 1).mpr h.backoff, hgreatest,
      h.polls.imp_right (Value.isBelow?_eq_false_iff _ 1).mpr,
      (Value.isBelow?_eq_false_iff _ 1).mpr h.tries, List.forall_mem_nil _⟩
  · rintro ⟨hinterval, hbackoff, hgreatest, hattempts, htries, -⟩
    have hnumber := Value.isNumber_of_isBelow? hinterval
    have hnumber' : s.maxPollInterval.IsNumber := by
      rw [← hnumber.isSome_greater?_iff, hgreatest]
      rfl
    exact ⟨(Value.isBelow?_eq_false_iff _ 0).mp hinterval,
      (Value.isBelow?_eq_false_iff _ 1).mp hbackoff, hnumber',
      (Value.greater?_eq_false_iff hnumber hnumber').mp hgreatest,
      hattempts.imp_right (Value.isBelow?_eq_false_iff _ 1).mp,
      (Value.isBelow?_eq_false_iff _ 1).mp htries⟩

/-- **A check gives the settings themselves**, if they satisfy the rules. -/
theorem check_eq_ok_iff {s t : RawSettings} : s.check = .ok t ↔ t = s ∧ s.Upheld := by
  rw [upheld_iff, ← Settings.objection?_eq_none_iff, check]
  constructor
  · intro h
    split at h
    · cases h
    · next hnone =>
      cases h
      exact ⟨rfl, hnone⟩
  · rintro ⟨rfl, hnone⟩
    rw [hnone]

end RawSettings

namespace Settings

/-- **Settings that no rule objects to.** A number that is compared with the undefined one is not
    less. -/
structure Passes (s : Settings) : Prop where
  interval : s.pollInterval.less (.ofInt 0) = false
  backoff : s.pollBackoff.less (.ofInt 1) = false
  greatest : s.maxPollInterval.less s.pollInterval = false
  polls : s.maxPollAttempts = .null ∨ s.maxPollAttempts.isBelow? 1 = some false
  tries : s.clientMaxAttempts.isBelow? 1 = some false

/-- Floating-point numbers are compared by the rules as such. -/
theorem passes_iff (s : Settings) : s.Passes ↔ s.raw.Upheld := by
  constructor
  · intro h
    refine ⟨?_, ?_, ?_, ?_, ?_, ?_⟩
    · exact ((Binary64.less_integer_eq_false_iff Binary64.extended?_zero).mp h.interval).imp_left
        (congrArg Value.real)
    · exact ((Binary64.less_integer_eq_false_iff Binary64.extended?_one).mp h.backoff).imp_left
        (congrArg Value.real)
    · exact Value.isNumber_real s.maxPollInterval
    · exact ((Binary64.less_eq_false_iff _ _).mp h.greatest).imp (congrArg Value.real)
        (Or.imp_left (congrArg Value.real))
    · exact h.polls.imp_right (Value.isBelow?_eq_false_iff _ 1).mp
    · exact (Value.isBelow?_eq_false_iff _ 1).mp h.tries
  · intro h
    refine ⟨?_, ?_, ?_, ?_, ?_⟩
    · exact (Binary64.less_integer_eq_false_iff Binary64.extended?_zero).mpr
        (h.interval.imp_left Value.real.inj)
    · exact (Binary64.less_integer_eq_false_iff Binary64.extended?_one).mpr
        (h.backoff.imp_left Value.real.inj)
    · exact (Binary64.less_eq_false_iff _ _).mpr
        (h.greatest.imp Value.real.inj (Or.imp_left Value.real.inj))
    · exact h.polls.imp_right (Value.isBelow?_eq_false_iff _ 1).mpr
    · exact (Value.isBelow?_eq_false_iff _ 1).mpr h.tries

/-- **A check gives the settings themselves**, if no rule objects to them. -/
theorem check_eq_ok_iff {s t : Settings} : s.check = .ok t ↔ t = s ∧ s.Passes := by
  rw [passes_iff, check]
  constructor
  · intro h
    cases hraw : s.raw.check with
    | error e =>
      rw [hraw] at h
      cases h
    | ok r =>
      rw [hraw] at h
      cases h
      exact ⟨rfl, (RawSettings.check_eq_ok_iff.mp hraw).2⟩
  · rintro ⟨rfl, h⟩
    rw [RawSettings.check_eq_ok_iff.mpr ⟨rfl, h⟩]
    rfl

/-- No rule objects to the default settings. -/
theorem passes_default : default.Passes where
  interval := by decide +kernel
  backoff := by decide +kernel
  greatest := by decide +kernel
  polls := Or.inr (by decide +kernel)
  tries := by decide +kernel

/-! ## The bound on polls -/

/-- **The bound on polls as a count**, none if no count reaches it. -/
def pollBound? (s : Settings) : Option Nat :=
  match s.maxPollAttempts with
  | .bool true => some 1
  | .int n => some n.toNat
  | .real x => x.ceiling?
  | _ => none

/-- How a finite number is compared with integers. -/
theorem compare_of_place {v : Value} {b : Int} (h : v.place? = some (.at 0 b)) (n : Int) :
    v.isBelow? n = some (decide (b < n * Binary64.unit)) ∧
      (v.isReachedBy n ↔ b ≤ n * Binary64.unit) := by
  rw [Value.isBelow?, Value.greater?_of_place? (Value.place?_int n) h, Value.isReachedBy, h,
    Value.place?_int]
  generalize n * (Binary64.unit : Int) = m
  simp only [Value.Place.greater, Value.Place.same]
  simp
  omega

/-- A count of steps is reached by as many whole ones as its ceiling says. -/
theorem ceiling_le_iff (u k : Nat) :
    (u + (Binary64.unit - 1)) / Binary64.unit ≤ k ↔ (u : Int) ≤ k * Binary64.unit := by
  rw [Nat.div_le_iff_le_mul_add_pred Binary64.unit_pos, Nat.add_le_add_iff_right,
    Nat.mul_comm, ← Int.natCast_mul, Int.ofNat_le]

/-- A bound that has a count is reached by the counts from it on. -/
def Reached (v : Value) (bound : Option Nat) : Prop :=
  (∀ k : Nat, v.isReachedBy k ↔ ∃ n ∈ bound, n ≤ k) ∧ ∀ n ∈ bound, 1 ≤ n

/-- A bound that is not below one is one unit at least. -/
theorem unit_le_of_place {v : Value} {b : Int} (hv : v.place? = some (.at 0 b))
    (hb : v.isBelow? 1 = some false) : (Binary64.unit : Int) ≤ b := by
  rw [(compare_of_place hv 1).1, Option.some.injEq, Int.one_mul] at hb
  exact Int.not_lt.mp (of_decide_eq_false hb)

/-- A finite bound that is not below one has a count, which is not zero. -/
theorem reached_of_place {v : Value} {b : Int} (hv : v.place? = some (.at 0 b))
    (hb : v.isBelow? 1 = some false) {n : Nat}
    (hn : ∀ k : Nat, b ≤ k * Binary64.unit ↔ n ≤ k) : Reached v (some n) := by
  have hunit : (0 : Int) < Binary64.unit := Int.natCast_pos.mpr Binary64.unit_pos
  have hone := unit_le_of_place hv hb
  constructor
  · intro k
    rw [(compare_of_place hv k).2, hn k]
    exact ⟨fun h => ⟨n, rfl, h⟩, fun ⟨m, hm, h⟩ => Option.some.inj hm ▸ h⟩
  · rintro m ⟨⟩
    refine Nat.one_le_iff_ne_zero.mpr fun hzero => ?_
    -- a count of zero would put the bound at zero or below
    have := (hn 0).mpr (Nat.le_of_eq hzero)
    omega

/-- A bound that no count reaches. -/
theorem reached_none {v : Value} (h : ∀ k : Nat, v.isReachedBy k = false) : Reached v none :=
  ⟨fun k => by simp [h k], nofun⟩

/-- **The bound on polls is reached by the counts from its own count on**, and that is not zero. -/
theorem Passes.reached {s : Settings} (hs : s.Passes) : Reached s.maxPollAttempts s.pollBound? := by
  have hunit : (0 : Int) < Binary64.unit := Int.natCast_pos.mpr Binary64.unit_pos
  rcases hs.polls with hnull | hbelow
  · rw [pollBound?, hnull]
    exact reached_none fun _ => rfl
  rw [pollBound?]
  cases hv : s.maxPollAttempts with
  | int m =>
    rw [hv] at hbelow
    refine reached_of_place rfl hbelow fun k => ?_
    have hm : ¬ m < 1 := by
      rw [Value.isBelow?_int, Option.some.injEq] at hbelow
      exact of_decide_eq_false hbelow
    rw [Int.mul_le_mul_right hunit]
    omega
  | bool b =>
    rw [hv] at hbelow
    cases b with
    | false =>
      have hplace : (Value.bool false).place? = some (.at 0 0) := rfl
      exact absurd (unit_le_of_place hplace hbelow) (Int.not_le.mpr hunit)
    | true =>
      have hplace : (Value.bool true).place? = some (.at 0 Binary64.unit) := rfl
      refine reached_of_place hplace hbelow fun k => ?_
      have hle := Int.mul_le_mul_right (b := 1) (c := k) hunit
      rw [Int.one_mul] at hle
      rw [hle]
      omega
  | real x =>
    rw [hv] at hbelow
    cases x with
    | nan => exact reached_none fun _ => rfl
    | infinite t =>
      cases t with
      | false => exact reached_none fun _ => rfl
      | true => cases hbelow
    | finite t u hu =>
      cases t with
      | false => exact reached_of_place rfl hbelow fun k => (ceiling_le_iff u k).symm
      | true =>
        have hle : (Binary64.unit : Int) ≤ -u := unit_le_of_place rfl hbelow
        have hneg : -(u : Int) ≤ 0 := Int.neg_nonpos_of_nonneg (Int.natCast_nonneg u)
        exact absurd (Int.le_trans hle hneg) (Int.not_le.mpr hunit)
  | _ =>
    rw [hv] at hbelow
    cases hbelow

end Settings

end IamInventory
