import ProcessCensus.Memo.Basic

/-!
Several callers of one memo. Each caller takes atomic steps: it looks for a fresh value, tries to
take the refresh lock, looks again while it holds the lock, starts the supplier, and publishes what
it answers and lets go of the lock. A caller who finds the lock taken reads the published value
even if it has expired, and waits for the lock only if there is none. Any order of the steps of
different callers is a run of the machine.

A clock can tell moments up to some last one only. A caller whose value would expire after that is
broken off when the supplier answers: it lets go of the lock and publishes nothing.
-/

namespace ProcessCensus.Memo

/-- How far a caller has come. -/
inductive Stage (α : Type) where
  /-- About to look for a fresh value. -/
  | checking
  /-- Found none; about to try to take the lock. -/
  | trying
  /-- Holds the lock; about to look again. -/
  | rechecking
  /-- Holds the lock and found no fresh value; about to start the supplier. -/
  | starting
  /-- Holds the lock; the supplier is computing for the `call`-th time. -/
  | computing (call : Nat)
  /-- Found the lock taken; about to read what is published. -/
  | reading
  /-- Found nothing published; waits for the lock. -/
  | waiting
  /-- Has got a value. -/
  | done (value : α)
  /-- Was broken off, since the clock cannot tell when its value would expire. -/
  | broken
deriving DecidableEq

/-- A memo with its callers, numbered in the order of their arrival. -/
structure Machine (α : Type) where
  memo : Memo α
  clock : Nat
  /-- The last moment that the clock can tell. -/
  horizon : Nat
  /-- How often the supplier has been started. -/
  calls : Nat
  /-- The caller who holds the refresh lock. -/
  holder : Option Nat
  callers : List (Stage α)

namespace Machine

variable {α : Type}

/-- A machine without callers, by a clock that can tell moments up to `horizon`. -/
def start (ttl : Option Nat) (horizon : Nat) : Machine α :=
  { memo := .unfilled ttl, clock := 0, horizon, calls := 0, holder := none, callers := [] }

/-- Whether the clock can tell when a value that is published now will expire. -/
def canDate (machine : Machine α) : Bool :=
  machine.memo.ttl.all fun ttl => machine.clock + ttl ≤ machine.horizon

/-- A caller moves to another stage. -/
def move (machine : Machine α) (caller : Nat) (stage : Stage α) : Machine α :=
  { machine with callers := machine.callers.set caller stage }

/-- The next step of a caller whose stage is `stage`; `supply` tells what the supplier answers to
each of its calls. A caller who is done or broken off, or who waits while the lock is taken, has
none. -/
def stepFrom (supply : Nat → α) (machine : Machine α) (caller : Nat) :
    Stage α → Option (Machine α)
  | .checking =>
    match machine.memo.fresh? machine.clock with
    | some value => some (machine.move caller (.done value))
    | none => some (machine.move caller .trying)
  | .trying =>
    match machine.holder with
    | none => some ({ machine with holder := some caller }.move caller .rechecking)
    | some _ => some (machine.move caller .reading)
  | .rechecking =>
    match machine.memo.fresh? machine.clock with
    | some value => some ({ machine with holder := none }.move caller (.done value))
    | none => some (machine.move caller .starting)
  | .starting =>
    some ({ machine with calls := machine.calls + 1 }.move caller (.computing (machine.calls + 1)))
  | .computing call =>
    if machine.canDate then
      some ({ machine with
        memo := machine.memo.publish machine.clock (supply call)
        holder := none }.move caller (.done (supply call)))
    else some ({ machine with holder := none }.move caller .broken)
  | .reading =>
    match machine.memo.current? with
    | some value => some (machine.move caller (.done value))
    | none => some (machine.move caller .waiting)
  | .waiting =>
    match machine.holder with
    | none => some ({ machine with holder := some caller }.move caller .rechecking)
    | some _ => none
  | .done _ | .broken => none

/-- The next step of a caller. -/
def step (supply : Nat → α) (machine : Machine α) (caller : Nat) : Option (Machine α) :=
  (machine.callers[caller]?).bind (machine.stepFrom supply caller)

/-- A new caller arrives. -/
def arrive (machine : Machine α) : Machine α :=
  { machine with callers := machine.callers ++ [.checking] }

/-- Somebody declares the published value expired. -/
def expire (machine : Machine α) : Machine α :=
  { machine with memo := machine.memo.expire machine.clock }

/-- The clock goes on. -/
def advance (machine : Machine α) (milliseconds : Nat) : Machine α :=
  { machine with clock := machine.clock + milliseconds }

/-- What may happen to a machine. -/
inductive Event where
  | arrive
  | step (caller : Nat)
  | expire
  | advance (milliseconds : Nat)
deriving DecidableEq

/-- The machine after an event, unless it is a step that cannot be taken. -/
def apply (supply : Nat → α) (machine : Machine α) : Event → Option (Machine α)
  | .arrive => some machine.arrive
  | .step caller => machine.step supply caller
  | .expire => some machine.expire
  | .advance milliseconds => some (machine.advance milliseconds)

end Machine

end ProcessCensus.Memo
