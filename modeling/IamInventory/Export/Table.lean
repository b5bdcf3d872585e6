import IamInventory.Inventory

/-!
# Tables — an inventory to read on a screen

  Each resource is a line with its report, its kind, its identity, and its latest use. Long
  identities are cut short. Below the table stand the failures of reports.

* **`Export.column`** — a value in a column.
* **`Export.printTable`** — prints an inventory, line by line.
-/

namespace IamInventory.Export

open Number

variable {σ : Type}

/-- A text with blanks after it, up to a width. -/
def padded (width : Nat) (s : String) : String :=
  s ++ String.ofList (List.replicate (width - s.length) ' ')

/-- The width of the column of reports. -/
def reportWidth : Nat := 22

/-- The width of the column of kinds. -/
def kindWidth : Nat := 16

/-- The width of the column of identities. -/
def idWidth : Nat := 40

/-- A line of the table, its first two columns as they stand. -/
def tableLine (report kind id used : String) : String :=
  report ++ " " ++ kind ++ " " ++ padded idWidth id ++ " " ++ used

/-- The line above the table. -/
def tableHeader : String :=
  tableLine (padded reportWidth "Report") (padded kindWidth "Type") "ID" "Last used"

/-- An identity that fits into its column. -/
def shortened (s : String) : String :=
  if idWidth < s.length then String.ofList (s.toList.take 37) ++ "..." else s

/-- The identity in a line, if it is a text. A value without a length has no place in a line, nor
    has one that would have to be cut short. -/
def identityText? (id : Value) : Except Fault (Option String) :=
  match id with
  | .text s => .ok (some (shortened s))
  | v => do
    let parts ← v.items
    if idWidth < parts.length then .error .mistyped else .ok none

/-- **A value in a column.** Truth values stand as numbers. A timestamp is written by the pattern
    that the column gives, which names no part of it; what is no text or number has no place. -/
def column (width : Nat) : Value → Except Fault String
  | .text s => .ok (padded width s)
  | .bool b => .ok (padded width (if b then "1" else "0"))
  | .int n => .ok (padded width (integerText n))
  | .real x => .ok (padded width (binary64Text x))
  | .time _ => .ok s!"<{width}"
  | _ => .error .mistyped

/-- The line of a resource. -/
def resourceLine (report : Value) (r : Resource) : Except Fault String := do
  let id ← identityText? r.id
  let used ← r.lastUsedText?
  match id with
  | some id =>
    .ok (tableLine (← column reportWidth report) (← column kindWidth r.kind) id (used.getD "-"))
  | none => .error .mistyped

/-- Prints a line. -/
def printLine (line : String) : Run σ Unit := Run.emit (.printed (line ++ "\n"))

/-- **Prints an inventory.** -/
def printTable (inventory : Inventory) : Run σ Unit := do
  if inventory.resources.isEmpty then printLine "No resources found."
  else
    printLine tableHeader
    printLine (String.ofList (List.replicate tableHeader.length '-'))
    Run.each inventory.resources fun r => do
      printLine (← Run.ofFault (resourceLine r.1 r.2))
  Run.each (← Run.ofFault inventory.failures) fun f =>
    printLine ("Report " ++ f.1.shown ++ " is incomplete: " ++ f.2)

end IamInventory.Export
