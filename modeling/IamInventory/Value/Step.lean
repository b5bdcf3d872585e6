import IamInventory.Value.Parts

/-!
# Steps — from a value to one within it

  A step from an object is a name, a step from a list is an index, and so is a step from a text or
  from bytes; a path is steps one after another. A value is changed along a path from the inside
  out: what the path ends at first, then everything that it goes through.

* **`Value.part`** — what a step leads to.
* **`Value.changeAt`** — a value with what is at the end of a path changed.
-/

namespace IamInventory.Value

/-- The place among items that an index means; an index below zero counts from the end. -/
def place (length : Nat) : Value → Except Fault Nat
  | .int i =>
    let j := if i < 0 then i + length else i
    if 0 ≤ j ∧ j < length then .ok j.toNat else .error .beyond
  | .bool b => if b.toNat < length then .ok b.toNat else .error .beyond
  | _ => .error .mistyped

/-- **What a step leads to.** -/
def part (v step : Value) : Except Fault Value :=
  match v with
  | .object _ =>
    match step with
    | .text name => v.member name
    | _ => .error (if step.isName then .missing step else .mistyped)
  | _ => do
    let vs ← v.items
    let i ← step.place vs.length
    .ok (vs.getD i .null)

/-- A value with another one where a step leads; a text and bytes cannot be changed. -/
def withPart (v step new : Value) : Except Fault Value :=
  match v, step with
  | .object ms, .text name => .ok (.object (Members.set ms name new))
  | .list vs, _ => do .ok (.list (vs.set (← step.place vs.length) new))
  | _, _ => .error .mistyped

/-- **A value with what is at the end of a path changed.** -/
def changeAt (change : Value → Except Fault Value) : List Value → Value → Except Fault Value
  | [], v => change v
  | step :: path, v => do
    let inner ← v.part step
    v.withPart step (← changeAt change path inner)

end IamInventory.Value
