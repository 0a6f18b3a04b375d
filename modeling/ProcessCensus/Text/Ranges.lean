/-!
Sets of characters given as intervals of code points.
-/

namespace ProcessCensus.Text

/-- Closed intervals of code points, in ascending order. -/
abbrev Ranges := List (Nat × Nat)

/-- Whether one of the intervals holds the code point. -/
def Ranges.hold (ranges : Ranges) (code : Nat) : Bool :=
  ranges.any fun (first, last) => first ≤ code && code ≤ last

/-- Whether one of the intervals holds the character. -/
def Ranges.holdChar (ranges : Ranges) (c : Char) : Bool :=
  ranges.hold c.toNat

end ProcessCensus.Text
