/-!
Cutting a list into pieces of equal length.
-/

namespace ProcessCensus

/-- The least number of groups of `size` into which `count` things go. -/
def ceilDiv (count size : Nat) : Nat :=
  (count + size - 1) / size

/-- The pieces of a list, each `size` long except for the last one. -/
def chunks {α : Type} (size : Nat) (list : List α) : List (List α) :=
  (List.range (ceilDiv list.length size)).map fun i => (list.drop (i * size)).take size

end ProcessCensus
