import IamInventory.Failure

/-!
# Resource names — the parts of an ARN

  An ARN is the word `arn` and five parts with colons between them; the last part is the rest of
  the text and may hold further colons. The service and the resource must not be empty.

* **`Arn.read?`** — the parts of a text that is an ARN.
* **`Arn.text`** — the text of the parts.
* **`Arn.parse`** — the parts of a value, or the failure that names it.
-/

namespace IamInventory

/-- The parts of an ARN after the word `arn`. -/
structure Arn where
  partition : String
  service : String
  region : String
  account : String
  resource : String
deriving DecidableEq, Repr

namespace Arn

/-- The characters before the first colon and after it, if there is one. -/
def cut? : List Char → Option (List Char × List Char)
  | [] => none
  | c :: cs => if c = ':' then some ([], cs) else (cut? cs).map fun p => (c :: p.1, p.2)

/-- **The parts of a text that is an ARN.** -/
def read? (s : String) : Option Arn := do
  let (word, rest) ← cut? s.toList
  let (partition, rest) ← cut? rest
  let (service, rest) ← cut? rest
  let (region, rest) ← cut? rest
  let (account, resource) ← cut? rest
  if word = "arn".toList ∧ service ≠ [] ∧ resource ≠ [] then
    some ⟨.ofList partition, .ofList service, .ofList region, .ofList account, .ofList resource⟩
  else none

/-- The text of the parts. -/
def text (a : Arn) : String :=
  ":".intercalate ["arn", a.partition, a.service, a.region, a.account, a.resource]

/-- The kind of the resource: its text before the first slash or colon. -/
def resourceType (a : Arn) : String :=
  String.ofList (a.resource.toList.takeWhile fun c => c ≠ '/' ∧ c ≠ ':')

/-- The failure of a value that is no ARN. -/
def malformed (v : Value) : Failure :=
  ⟨.malformedArn, .text "malformed ARN", .text "parse ARN", .text v.shown⟩

/-- **The parts of a value**, which has to be a text. -/
def parse : Value → Except Failure Arn
  | .text s => match read? s with
    | some a => .ok a
    | none => .error (malformed (.text s))
  | v => .error (malformed v)

end Arn

end IamInventory
