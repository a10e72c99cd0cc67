/-!
# Classes of characters given by ranges

A character class of a standard is a table: the code points from `first` to
`last`, both included, range after range. `inRanges` reads such a table.
-/

namespace CatAndMouse.Text

/-- A table of code points: pairs of a first and a last code point. -/
abbrev CodeRanges := List (Nat × Nat)

/-- The character lies in one of the ranges. -/
def inRanges (table : CodeRanges) (c : Char) : Bool :=
  table.any fun (first, last) => first ≤ c.toNat && c.toNat ≤ last

/-- Membership, range by range. -/
theorem inRanges_iff {table : CodeRanges} {c : Char} :
    inRanges table c = true ↔ ∃ r ∈ table, r.1 ≤ c.toNat ∧ c.toNat ≤ r.2 := by
  simp [inRanges]

end CatAndMouse.Text
