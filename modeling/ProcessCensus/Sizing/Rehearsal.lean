import ProcessCensus.Script
import ProcessCensus.Sizing.Basic

/-!
A counterpart for calls that fill a buffer, with the outcome of every size probe and every fetch laid
down in advance. It writes numbers, of four bytes each, that tell which fetch they come from and where
they stand.
-/

namespace ProcessCensus.Sizing

/-- What is laid down, and an account of the calls so far. -/
structure Rehearsal where
  probes : Script (Except Failure Nat)
  fetches : Script (Except Failure Nat)
  probed : Nat
  /-- The capacity of the buffer of each fetch, the latest first. -/
  capacities : List Nat

namespace Rehearsal

/-- Nothing called yet. -/
def start (probes fetches : List (Except Failure Nat)) : Rehearsal :=
  { probes := ⟨probes⟩, fetches := ⟨fetches⟩, probed := 0, capacities := [] }

/-- What is answered when nothing was laid down. -/
def unscripted : Except Failure Nat :=
  .error (.unsupported "call")

/-- A size probe. -/
def probe : Attempt Rehearsal Nat :=
  Attempt.call fun r =>
    (r.probes.peek?.getD unscripted, { r with probes := r.probes.advance, probed := r.probed + 1 })

/-- The numbers that the `call`-th fetch writes into the first `count` elements. -/
def marks (call count : Nat) : List Int :=
  (List.range count).map fun i => ((1000 * call + i : Nat) : Int)

/-- A fetch. -/
def fetch (capacity : Nat) : Attempt Rehearsal (Filled Int) :=
  Attempt.call fun r =>
    let call := r.capacities.length + 1
    let answer := (r.fetches.peek?.getD unscripted).map fun count =>
      { written := marks call (min count capacity), reported := count }
    (answer, { r with fetches := r.fetches.advance, capacities := capacity :: r.capacities })

/-- The answer that the probes and fetches lead to. -/
def perform (what : String) : Attempt Rehearsal (Buffer Int) :=
  probeThenFetch what 4 0 probe fetch

end Rehearsal

end ProcessCensus.Sizing
