/-!
# Code point ranges

A class of characters beyond ASCII is given by the inclusive ranges of its code
points.  This file holds the membership test that the tables share.
-/

namespace SingleFile.Text

/-- Some range of the table holds the code point. -/
def inRanges (ranges : List (Nat × Nat)) (n : Nat) : Bool :=
  ranges.any fun (low, high) => low ≤ n && n ≤ high

theorem inRanges_iff (ranges : List (Nat × Nat)) (n : Nat) :
    inRanges ranges n = true ↔ ∃ r ∈ ranges, r.1 ≤ n ∧ n ≤ r.2 := by
  simp [inRanges, List.any_eq_true]

end SingleFile.Text
