import IamInventory.Value

/-!
# Equality and order of values — by what they denote

  Numbers of all kinds are compared by their exact value, timestamps by the instant, and objects
  without regard to the order of their members. Only values of one kind can be ordered.

* **`Value.same`** — whether two values denote the same.
* **`Value.greater?`** — whether the first value is greater; no answer for two values that cannot
  be ordered against each other.
-/

namespace IamInventory

open Number

namespace Value

/-- The place of a number among all numbers, the infinities outside the finite ones. -/
inductive Place where
  | undefined
  | at (outside inside : Int)
deriving DecidableEq, Repr

/-- The place of a value that is a number; truth values count as one and zero. -/
def place? : Value → Option Place
  | .bool b => some (.at 0 (if b then Binary64.unit else 0))
  | .int n => some (.at 0 (n * Binary64.unit))
  | .real .nan => some .undefined
  | .real (.infinite s) => some (.at (if s then -1 else 1) 0)
  | .real (.finite s u _) => some (.at 0 (if s then -u else u))
  | _ => none

/-- Whether two places are the same one. -/
def Place.same : Place → Place → Bool
  | .at a b, .at c d => a == c && b == d
  | _, _ => false

/-- Whether the first place is beyond the second. -/
def Place.greater : Place → Place → Bool
  | .at a b, .at c d => c < a || (a == c && d < b)
  | _, _ => false

mutual

/-- **Whether two values denote the same.** -/
def same (v w : Value) : Bool :=
  match v, w with
  | .null, .null => true
  | .text s, .text t => s == t
  | .time s, .time t => s.same t
  | .bytes bs, .bytes cs => bs == cs
  | .list vs, .list ws => sameItems vs ws
  | .object ms, .object ns => ms.length == ns.length && sameMembers ms ns
  | v, w =>
    match v.place?, w.place? with
    | some p, some q => p.same q
    | _, _ => false

/-- Whether two lists hold the same values. -/
def sameItems (vs ws : List Value) : Bool :=
  match vs, ws with
  | [], [] => true
  | v :: vs, w :: ws => same v w && sameItems vs ws
  | _, _ => false

/-- Whether every member is a member of the second object with the same value. -/
def sameMembers (ms : List (String × Value)) (ns : List (String × Value)) : Bool :=
  match ms with
  | [] => true
  | (name, v) :: ms =>
    (match Members.get? ns name with
      | some w => same v w
      | none => false) && sameMembers ms ns

end

/-- Whether the first list of bytes comes after the second. -/
def bytesGreater : List UInt8 → List UInt8 → Bool
  | b :: bs, c :: cs => if b = c then bytesGreater bs cs else c < b
  | _ :: _, [] => true
  | [], _ => false

mutual

/-- **Whether the first value is greater than the second**, if the two can be ordered. -/
def greater? (v w : Value) : Option Bool :=
  match v, w with
  | .text s, .text t => some (t < s)
  | .time s, .time t => s.later? t
  | .bytes bs, .bytes cs => some (bytesGreater bs cs)
  | .list vs, .list ws => itemsGreater? vs ws
  | v, w =>
    match v.place?, w.place? with
    | some p, some q => some (p.greater q)
    | _, _ => none

/-- Whether the first list is greater than the second: at the first place where they differ, or by
    being longer. -/
def itemsGreater? (vs ws : List Value) : Option Bool :=
  match vs, ws with
  | [], _ => some false
  | _ :: _, [] => some true
  | v :: vs, w :: ws => if same v w then itemsGreater? vs ws else greater? v w

end

/-! ## Comparisons with an integer -/

/-- Whether a value is less than an integer, if it is a number. -/
def isBelow? (v : Value) (n : Int) : Option Bool := (Value.int n).greater? v

/-- Whether a value is a number and an integer reaches it. -/
def isReachedBy (v : Value) (n : Int) : Bool :=
  match v.place?, (Value.int n).place? with
  | some p, some q => p.same q || q.greater p
  | _, _ => false

theorem place?_int (n : Int) : (Value.int n).place? = some (.at 0 (n * Binary64.unit)) := rfl

theorem isBelow?_int (m n : Int) : (Value.int m).isBelow? n = some (decide (m < n)) := by
  have h : (0 : Int) < Binary64.unit := Int.natCast_pos.2 Binary64.unit_pos
  simp only [isBelow?, greater?, place?_int, Place.greater]
  generalize (Binary64.unit : Int) = u at h ⊢
  have hl : m * u < n * u ↔ m < n := Int.mul_lt_mul_right h
  simp [hl]

end Value

end IamInventory
