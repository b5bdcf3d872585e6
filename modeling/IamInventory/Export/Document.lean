import IamInventory.Inventory

/-!
# Documents — an inventory as JSON

  The document has the resources of all reports, each with the name of its report, and the
  failures of reports by name. JSON has texts for names only: null, truth values and numbers become
  texts, timestamps and bytes are no names.

* **`Export.document`** — the document of an inventory.
* **`Export.documentText`** — its text.
-/

namespace IamInventory

namespace Export

/-- The resources of a document. -/
def resourceValues (inventory : Inventory) : List Value :=
  inventory.resources.map fun r => .object (r.2.fields ++ [("report", r.1)])

/-- A name in a document. -/
def documentName (name : Value) : Except Fault String :=
  match name with
  | .time _ => .error .mistyped
  | .bytes _ => .error .mistyped
  | _ => .ok name.memberName

/-- **The document of an inventory.** -/
def document (inventory : Inventory) : Except Fault Value := do
  let errors ← (← inventory.failures).mapM fun f => do
    .ok ((← documentName f.1), Value.text f.2)
  .ok (.object [("resources", .list (resourceValues inventory)), ("errors", .object errors)])

/-- The text of the document, a line for each item. -/
def documentText (inventory : Inventory) : Except Fault String := do
  .ok (Json.write .indented (← document inventory))

end Export

end IamInventory
