/-!
# Ranges of code points

A class of characters that a standard gives by enumeration is a list of closed ranges of code
points, in ascending order.
-/

namespace ScriptCheck.Text

/-- Closed ranges of code points: `(lo, hi)` stands for every code point from `lo` to `hi`. -/
abbrev Ranges := List (Nat × Nat)

/-- Whether the code point of `c` lies in one of the ranges. -/
def Ranges.contains (ranges : Ranges) (c : Char) : Bool :=
  ranges.any fun (lo, hi) => lo ≤ c.toNat && c.toNat ≤ hi

/-- A character is in a class exactly when one of its ranges encloses it. -/
theorem Ranges.contains_iff {ranges : Ranges} {c : Char} :
    ranges.contains c = true ↔ ∃ r ∈ ranges, r.1 ≤ c.toNat ∧ c.toNat ≤ r.2 := by
  simp [Ranges.contains]

end ScriptCheck.Text
