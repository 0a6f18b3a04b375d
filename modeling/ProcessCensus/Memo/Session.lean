import ProcessCensus.Memo.Machine

/-!
One particular use of the machine: callers come one after the other, and each goes as far as it can.
One of them may be held up while its supplier computes; those who then find nothing published wait
for it.
-/

namespace ProcessCensus.Memo

/-- A machine with the caller who is held up and those who wait for it. -/
structure Session (α : Type) where
  machine : Machine α
  pending : Option Nat
  waiters : List Nat

namespace Session

variable {α : Type}

/-- The last moment of a clock that counts seconds in 63 bits, in milliseconds. -/
def lastMoment : Nat := 9223372036854775807999

/-- The largest number of steps that a caller can take. -/
def stepBound : Nat := 6

/-- A caller goes on for some steps, until it is done, cannot go on or is where it shall pause. -/
def drive (supply : Nat → α) (pause : Stage α → Bool) (caller : Nat) :
    Nat → Machine α → Machine α
  | 0, machine => machine
  | fuel + 1, machine =>
    if (machine.callers[caller]?).any pause then machine
    else
      match machine.step supply caller with
      | some next => drive supply pause caller fuel next
      | none => machine

/-- The stage in which a caller is held up. -/
def isComputing : Stage α → Bool
  | .computing _ => true
  | _ => false

/-- The value that a caller has got. -/
def valueOf? (machine : Machine α) (caller : Nat) : Option α :=
  match machine.callers[caller]? with
  | some (.done value) => some value
  | _ => none

/-- A session without callers. -/
def start (ttl : Option Nat) : Session α :=
  { machine := .start ttl lastMoment, pending := none, waiters := [] }

/-- A new caller goes as far as it can; without a value if it has to wait. -/
def get (supply : Nat → α) (session : Session α) : Option α × Session α :=
  let caller := session.machine.callers.length
  let machine := drive supply (fun _ => false) caller stepBound session.machine.arrive
  (valueOf? machine caller, { session with machine })

/-- A new caller goes on until its supplier computes, and is held up there; without a value then. -/
def begin (supply : Nat → α) (session : Session α) : Option α × Session α :=
  let caller := session.machine.callers.length
  let machine := drive supply isComputing caller stepBound session.machine.arrive
  match valueOf? machine caller with
  | some value => (some value, { session with machine })
  | none => (none, { session with machine, pending := some caller })

/-- A new caller goes on until it waits. -/
def wait (supply : Nat → α) (session : Session α) : Session α :=
  let caller := session.machine.callers.length
  let machine := drive supply (fun _ => false) caller stepBound session.machine.arrive
  { session with machine, waiters := session.waiters ++ [caller] }

/-- The supplier of the caller who is held up returns, and those who waited go on in their order:
what the one gets and what the others get. -/
def finish (supply : Nat → α) (session : Session α) :
    Option α × List (Option α) × Session α :=
  let goOn (machine : Machine α) (caller : Nat) : Machine α :=
    drive supply (fun _ => false) caller stepBound machine
  let machine := (session.pending.toList ++ session.waiters).foldl goOn session.machine
  (session.pending.bind (valueOf? machine), session.waiters.map (valueOf? machine),
    { machine, pending := none, waiters := [] })

/-- Somebody declares the published value expired. -/
def expire (session : Session α) : Session α :=
  { session with machine := session.machine.expire }

/-- The clock goes on. -/
def advance (session : Session α) (milliseconds : Nat) : Session α :=
  { session with machine := session.machine.advance milliseconds }

end Session

end ProcessCensus.Memo
