import IamInventory.Export.Serial
import IamInventory.Inventory
import IamInventory.Text.Utf8

/-!
# Workbooks — an inventory as a sheet

  The sheet has a row for each resource below a row of titles that stays in sight. Columns are as
  wide as their longest cell, up to a limit. A cell holds a text without control characters, a
  number or a date; a text that is too long is cut off. The file may hold less than the cells do.

* **`Export.cell`**, **`Export.cells`** — a value as a cell holds it, and all cells.
* **`Export.sheet`** — the sheet that a file with such cells holds.
-/

namespace IamInventory.Export

open Number Text

/-- The titles of the columns. -/
def titles : List String := ["Report", "Type", "ID", "ARN", "Account", "Region", "Last used"]

/-- The most characters of a cell. -/
def longestCell : Nat := 32767

/-- The greatest width of a column. -/
def widestColumn : Nat := 60

/-- Whether no cell can hold a character: the controls but tab, line feed and carriage return. -/
def isIllegal (c : Char) : Bool :=
  c.toNat < 0x20 && c ≠ '\t' && c ≠ '\n' && c ≠ '\r'

/-- A text as a cell holds it. -/
def textCell (cs : List Char) : Except Fault Value :=
  let kept := cs.take longestCell
  if kept.any isIllegal then .error .illegalCharacter else .ok (.text (String.ofList kept))

/-- **A value as a cell holds it.** -/
def cell : Value → Except Fault Value
  | .text s => textCell s.toList
  | .bytes bs => match Utf8.decode bs with
    | .ok cs => textCell cs
    | .error m => .error (.invalid m.message)
  | .list vs => .error (.invalid ("Cannot convert " ++ (Value.list vs).quoted ++ " to Excel"))
  | .object ms =>
    .error (.invalid ("Cannot convert " ++ (Value.object ms).quoted ++ " to Excel"))
  | v => .ok v

/-- The cells of a resource. -/
def resourceCells (report : Value) (r : Resource) : Except Fault (List Value) := do
  let used ← r.lastUsedText?
  [report, r.kind, r.id, r.arn, r.account, r.region, .text (used.getD "")].mapM cell

/-- The length of a cell; an empty one has none. -/
def cellLength? (v : Value) : Option Nat := if v.isNull then none else some v.shown.length

/-- The width of the column at an index. -/
def columnWidth (rows : List (List Value)) (i : Nat) : Nat :=
  let lengths := (rows.filterMap fun row => row[i]?).filterMap cellLength?
  min (lengths.foldl max 0 + 2) widestColumn

/-- A text as it is read back from a file, where every line break is a line feed. -/
def lineFeeds : List Char → List Char
  | '\r' :: '\n' :: cs => '\n' :: lineFeeds cs
  | '\r' :: cs => '\n' :: lineFeeds cs
  | c :: cs => c :: lineFeeds cs
  | [] => []

/-- A cell as it is read back from a file. A file has no room for an offset, nor for an integer
    beyond every floating-point number. -/
def stored : Value → Except Fault Value
  | .null => .ok (.text "")
  | .text s => .ok (.text (String.ofList (lineFeeds s.toList)))
  | .int n =>
    match Binary64.ofInt n with
    | .infinite _ => .error .tooLarge
    | x => .ok (storedNumber x)
  | .real x => .ok (storedNumber x)
  | .time t => if t.isZoned then .error .mistyped else .ok (storedTime t)
  | v => .ok v

/-- **The cells of an inventory**, below the titles. -/
def cells (inventory : Inventory) : Except Fault (List (List Value)) := do
  let body ← inventory.resources.mapM fun r => resourceCells r.1 r.2
  .ok (titles.map .text :: body)

/-- **The sheet that a file holds** with such cells. -/
def sheet (rows : List (List Value)) : Except Fault Sheet := do
  .ok {
    title := "Resources"
    frozenAt := "A2"
    rows := ← rows.mapM fun row => row.mapM stored
    widths := (List.range titles.length).map (columnWidth rows) }

end IamInventory.Export
