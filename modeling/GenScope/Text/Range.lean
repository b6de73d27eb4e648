import GenScope.Text.Basic

/-!
# Tables of characters

A property of characters is a list of closed ranges of code points.
-/

namespace GenScope.Text

/-- The character lies in one of the ranges. -/
def inRanges (ranges : List (Nat × Nat)) (c : Char) : Bool :=
  ranges.any fun r => r.1 ≤ c.toNat && c.toNat ≤ r.2

end GenScope.Text
