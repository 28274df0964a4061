/-!
Sets of characters given as intervals of character numbers.
-/

namespace GemScribe.Text

/-- Closed intervals of character numbers. -/
abbrev Ranges := List (Nat × Nat)

def Ranges.contains (ranges : Ranges) (c : Char) : Bool :=
  ranges.any fun r => decide (r.1 ≤ c.toNat ∧ c.toNat ≤ r.2)

end GemScribe.Text
