import ProcessCensus.Run
import ProcessCensus.Sizing.Buffer

/-!
Calls that fill a buffer of the caller: first the size is asked for, then the answer. The answer may
have changed in between. A buffer that is filled to the last element may have cut the answer short,
so the question is asked again, three times at most.
-/

namespace ProcessCensus.Sizing

variable {κ α : Type}

/-- How often an answer is asked for before a full buffer is taken as it is. -/
def maxAttempts : Nat := 3

/-- The largest number of elements that a machine can address. -/
def maxCount : Nat := UInt64.size - 1

/-- The most bytes that one buffer can have. -/
def maxBytes : Nat := UInt64.size / 2 - 1

/-- The capacity for an answer of `needed` elements: an eighth more, and sixteen at least. -/
def capacityFor (needed : Nat) : Nat :=
  max 16 (min maxCount (needed + needed / 8))

/-- What a call did to its buffer: the elements it wrote from the start on, and how many it says
they are. -/
structure Filled (α : Type) where
  written : List α
  reported : Nat

/-- A new buffer of `capacity` elements of `width` bytes each. One that is too large breaks the
computation off. -/
def reserve (width capacity : Nat) : Attempt κ Unit :=
  if width * capacity ≤ maxBytes then pure () else Attempt.lift (throw .capacityOverflow)

/-- The attempts left to make, the first of them being number `attempt`. -/
def attemptFrom (what : String) (width : Nat) (blank : α) (probe : Attempt κ Nat)
    (fetch : Nat → Attempt κ (Filled α)) (attempt : Nat) : Nat → Attempt κ (Buffer α)
  | 0 => return .ofWritten blank [] 0
  | more + 1 => do
    let capacity := capacityFor (← probe)
    reserve width capacity
    let filled ← fetch capacity
    if filled.reported < capacity then
      return .ofWritten blank filled.written filled.reported
    else if more = 0 then
      Attempt.note (.bufferKept what attempt capacity)
      return .ofWritten blank filled.written capacity
    else
      Attempt.note (.bufferFilled what capacity)
      attemptFrom what width blank probe fetch (attempt + 1) more

/-- The answer of a call whose size `probe` tells and whose elements, of `width` bytes each, `fetch`
writes into a buffer of a given capacity, of `blank` elements at first. -/
def probeThenFetch (what : String) (width : Nat) (blank : α) (probe : Attempt κ Nat)
    (fetch : Nat → Attempt κ (Filled α)) : Attempt κ (Buffer α) :=
  attemptFrom what width blank probe fetch 1 maxAttempts

end ProcessCensus.Sizing
