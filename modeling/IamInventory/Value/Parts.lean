import IamInventory.Failure
import IamInventory.Json.NumberLiteral
import IamInventory.Value.Named

/-!
# Parts of a value — members and items, where a value has them

  Answers of the service are taken apart without a schema, so each access says what is wrong if a
  value has not the parts that it asks for.

* **`Value.member`**, **`Value.memberOr`** — a member that has to be there, or one with a default.
* **`Value.items`** — what a value holds, one by one.
* **`Value.pairs`** — the members of an object, or of a list of pairs.
-/

namespace IamInventory.Value

/-- The members of an object. -/
def members : Value → Except Fault Members
  | .object ms => .ok ms
  | _ => .error .partless

/-- The member of an object, which has to be there. -/
def member (v : Value) (name : String) : Except Fault Value :=
  match v with
  | .object ms => match Members.get? ms name with
    | some w => .ok w
    | none => .error (.missing (.text name))
  | _ => .error .mistyped

/-- The member of an object; the default if it is absent. -/
def memberOr (v : Value) (name : String) (default : Value) : Except Fault Value := do
  let ms ← v.members
  .ok ((ms.get? name).getD default)

/-- The member of an object under a name that need not be a text; the default if it is absent. -/
def memberUnder (v : Value) (name : Value) (default : Value) : Except Fault Value :=
  match name with
  | .text s => v.memberOr s default
  | _ => do
    let _ ← v.members
    if name.isName then .ok default else .error .mistyped

/-- What a value holds: the items of a list, the names of an object, the characters of a text, the
    bytes as numbers. -/
def items : Value → Except Fault (List Value)
  | .list vs => .ok vs
  | .object ms => .ok (ms.map fun m => .text m.1)
  | .text s => .ok (s.toList.map fun c => .text (String.singleton c))
  | .bytes bs => .ok (bs.map fun b => .int b.toNat)
  | _ => .error .mistyped

/-- A name as the name of a member: what is no text stands as JSON writes it, or else as in a
    message. -/
def memberName : Value → String
  | .null => "null"
  | .bool b => if b then "true" else "false"
  | .real x => String.ofList (Json.writeReal x)
  | v => v.shown

/-- The fault of something in place of a pair, at an index. -/
def notPair (index length : Nat) : Fault :=
  .invalid (s!"dictionary update sequence element #{index} has length {length}; 2 is required")

/-- The pairs of a list of pairs, counted from an index. -/
def pairsFrom (index : Nat) : List Value → Except Fault (List (Value × Value))
  | [] => .ok []
  | v :: vs => do
    match ← v.items with
    | [name, w] =>
      if name.isName then do .ok ((name, w) :: (← pairsFrom (index + 1) vs))
      else .error .mistyped
    | parts => .error (notPair index parts.length)

/-- **The members of an object, or of a list of pairs.** -/
def pairs : Value → Except Fault Members
  | .object ms => .ok ms
  | v => do
    let vs ← v.items
    let entries := Named.ofPairs (← pairsFrom 0 vs)
    .ok (Members.ofPairs (entries.map fun e => (e.1.memberName, e.2)))

end IamInventory.Value
