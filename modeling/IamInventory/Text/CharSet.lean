/-!
# Sets of characters — a property of characters as ranges of code points

  A character property of the Unicode standard is a list of closed ranges of code points.
  The tables of this folder (blanks, digits, letter case, visible characters) are such lists,
  as of Unicode 14.
-/

namespace IamInventory.Text

/-- A set of code points, as closed ranges. -/
abbrev CharSet := List (Nat × Nat)

namespace CharSet

/-- Whether a code point is in one of the ranges. -/
def has (s : CharSet) (n : Nat) : Bool := s.any fun r => r.1 ≤ n && n ≤ r.2

/-- Whether a character is in the set. -/
def hasChar (s : CharSet) (c : Char) : Bool := s.has c.toNat

theorem has_iff (s : CharSet) (n : Nat) : s.has n = true ↔ ∃ r ∈ s, r.1 ≤ n ∧ n ≤ r.2 := by
  simp [has]

end CharSet

end IamInventory.Text
