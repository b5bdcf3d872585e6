import IamInventory.Value

/-!
# Sheets — tables of a workbook

  A sheet has a title, rows of cells, and a width for each column; the rows above the frozen cell
  stay in sight. A file that is saved is a text or a workbook of one sheet.
-/

namespace IamInventory

/-- A sheet of a workbook. -/
structure Sheet where
  title : String
  frozenAt : String
  rows : List (List Value)
  widths : List Nat

/-- What a saved file holds. -/
inductive Document where
  | text (s : String)
  | workbook (sheet : Sheet)

end IamInventory
