/-!
# Sets of characters given by ranges

A property of characters is a list of inclusive ranges of code points. The tables of the text
modules are such lists, in ascending order and without overlaps.
-/

namespace RowGraph.Text

/-- Inclusive ranges of code points. -/
abbrev Ranges := List (Nat × Nat)

/-- Whether the character lies in one of the ranges. -/
def Ranges.contains (ranges : Ranges) (c : Char) : Bool :=
  ranges.any fun (first, last) => first ≤ c.toNat && c.toNat ≤ last

theorem Ranges.contains_iff {ranges : Ranges} {c : Char} :
    ranges.contains c = true ↔ ∃ r ∈ ranges, r.1 ≤ c.toNat ∧ c.toNat ≤ r.2 := by
  simp [Ranges.contains, List.any_eq_true]

end RowGraph.Text
