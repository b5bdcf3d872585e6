import IamInventory.Json.Reader
import IamInventory.Number.Scientific
import IamInventory.Service.Script
import IamInventory.Value.Display

/-!
# Recordings — values and answers as JSON

  JSON has no timestamps, no bytes and no exact floating-point numbers, and many readers lose large
  integers. A recording writes each of these as an object of one member whose name starts with a
  dollar sign. A recorded script has a list of answers for each action.

* **`Recording.plain`** — a value in JSON.
* **`Recording.value`** — the value that JSON stands for.
* **`Recording.script`** — the script that JSON stands for.
-/

namespace IamInventory.Recording

open Number

/-- The greatest size of an integer that every reader keeps. -/
def safeSize : Nat := Nat.pow 2 53

/-- A value with a tag. -/
def tagged (tag text : String) : Value := .object [(tag, .text text)]

mutual

/-- **A value in JSON.** -/
def plain : Value → Value
  | .int n => if n.natAbs < safeSize then .int n else tagged "$int" (integerText n)
  | .real x => tagged "$float" (binary64Text x)
  | .time t => tagged "$dt" t.text
  | .bytes bs => tagged "$bytes" (String.ofList (bs.flatMap fun b => Text.hexText 2 b.toNat))
  | .list vs => .list (plainItems vs)
  | .object ms => .object (plainMembers ms)
  | v => v

/-- The items of a list in JSON. -/
def plainItems : List Value → List Value
  | [] => []
  | v :: vs => plain v :: plainItems vs

/-- The members of an object in JSON. -/
def plainMembers : List (String × Value) → List (String × Value)
  | [] => []
  | (name, v) :: ms => (name, plain v) :: plainMembers ms

end

/-- The bytes of hexadecimal digits. -/
def bytes? : List Char → Option (List UInt8)
  | [] => some []
  | a :: b :: cs => do
    let x ← Text.hexDigit? a
    let y ← Text.hexDigit? b
    some (UInt8.ofNat (16 * x + y) :: (← bytes? cs))
  | [_] => none

/-- The value that a tag and a text stand for. -/
def untag? (tag text : String) : Option Value :=
  if tag = "$int" then (readInteger? text).map .int
  else if tag = "$float" then (readBinary64? text).map .real
  else if tag = "$dt" then (Timestamp.read? text).map .time
  else if tag = "$bytes" then (bytes? text.toList).map .bytes
  else none

mutual

/-- **The value that JSON stands for.** -/
def value : Value → Value
  | .list vs => .list (valueItems vs)
  | .object ms =>
    match ms with
    | [(tag, .text text)] => (untag? tag text).getD (.object [(tag, .text text)])
    | ms => .object (valueMembers ms)
  | v => v

/-- The items of a list that JSON stands for. -/
def valueItems : List Value → List Value
  | [] => []
  | v :: vs => value v :: valueItems vs

/-- The members of an object that JSON stands for. -/
def valueMembers : List (String × Value) → List (String × Value)
  | [] => []
  | (name, v) :: ms => (name, value v) :: valueMembers ms

end

/-- The names of the ways in which a client gives up. -/
def faults : List (String × ClientFault) :=
  [("no-credentials", .noCredentials), ("partial-credentials", .partialCredentials),
   ("no-region", .noRegion), ("no-profile", .noProfile), ("unreachable", .unreachable),
   ("read-timeout", .readTimeout), ("connect-timeout", .connectTimeout),
   ("bad-parameters", .badParameters), ("pagination", .pagination)]

/-- The answer that JSON stands for: a response, a rejection, or how the client gave up. -/
def answer : Value → Answer
  | .object [("ok", v)] => .response (value v)
  | .object [("rejected", v)] => .rejected (value v)
  | .object [("gave-up", .text name), ("details", .object ms)] =>
    .gaveUp ((faults.lookup name).getD .unspecified) (valueMembers ms)
  | _ => .gaveUp .unspecified []

/-- The answers that JSON stands for. -/
def answers : Value → List Answer
  | .list vs => vs.map answer
  | _ => []

/-- **The script that JSON stands for.** -/
def script : Value → Script
  | .object ms => ⟨ms.map fun m => (⟨m.1⟩, answers m.2), []⟩
  | _ => ⟨[], []⟩

end IamInventory.Recording
