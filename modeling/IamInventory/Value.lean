import IamInventory.Number.Binary64
import IamInventory.Timestamp

/-!
# Values — what the service's answers and policy documents are made of

  A value is what a JSON text can say, and besides that timestamps and byte strings, which answers
  of the service hold too. The members of an object keep the order in which they were put in, and
  no operation here puts a name in twice.

* **`Members`** — the members of an object, with look-up, replacement and removal.
* **`Value.truthy`** — whether a value counts as present and not empty.
-/

namespace IamInventory

open Number

/-- A value of a document or of an answer. -/
inductive Value where
  | null
  | bool (b : Bool)
  | int (n : Int)
  | real (x : Binary64)
  | text (s : String)
  | time (t : Timestamp)
  | bytes (bs : List UInt8)
  | list (items : List Value)
  | object (members : List (String × Value))
deriving Inhabited

/-- The members of an object, in order. -/
abbrev Members := List (String × Value)

namespace Members

/-- The value of the named member, if there is one. -/
def get? : Members → String → Option Value
  | [], _ => none
  | m :: ms, name => if m.1 = name then some m.2 else Members.get? ms name

/-- The value of the named member, null if there is none. -/
def get (ms : Members) (name : String) : Value := (ms.get? name).getD .null

/-- Whether there is a member of that name. -/
def has (ms : Members) (name : String) : Bool := (ms.get? name).isSome

/-- The members with the named one set: in place if it is there, else at the end. -/
def set : Members → String → Value → Members
  | [], name, v => [(name, v)]
  | m :: ms, name, v => if m.1 = name then (name, v) :: ms else m :: Members.set ms name v

/-- The members without the named one. -/
def erase (ms : Members) (name : String) : Members := ms.filter fun m => m.1 ≠ name

/-- The names of the members, in order. -/
def names (ms : Members) : List String := ms.map Prod.fst

/-- The members that result from putting in pairs one after another. -/
def ofPairs (ps : List (String × Value)) : Members :=
  ps.foldl (fun ms p => ms.set p.1 p.2) []

theorem get?_set (ms : Members) (name key : String) (v : Value) :
    (ms.set name v).get? key = if key = name then some v else ms.get? key := by
  induction ms with
  | nil => by_cases h : key = name <;> grind [set, get?]
  | cons m ms ih => by_cases h : m.1 = name <;> grind [set, get?]

theorem get?_erase (ms : Members) (name key : String) :
    (ms.erase name).get? key = if key = name then none else ms.get? key := by
  induction ms with
  | nil => simp [erase, get?]
  | cons m ms ih => by_cases h : m.1 = name <;> grind [erase, get?]

end Members

namespace Value

/-- Whether the value counts as present: not null, false, zero, or empty. -/
def truthy : Value → Bool
  | .null => false
  | .bool b => b
  | .int n => n != 0
  | .real x => !x.isZero
  | .text s => s != ""
  | .time _ => true
  | .bytes bs => !bs.isEmpty
  | .list vs => !vs.isEmpty
  | .object ms => !ms.isEmpty

/-- Whether the value is null. -/
def isNull : Value → Bool
  | .null => true
  | _ => false

/-- Whether the value is a text. -/
def isText : Value → Bool
  | .text _ => true
  | _ => false

end Value

end IamInventory
