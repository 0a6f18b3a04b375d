import ProcessCensus.Notice
import ProcessCensus.Record.Fault

/-!
Computations that ask a system. Each has access to the system's kernel, to the wall clock and to
the journal, and may be broken off. What was done to the kernel and the journal before that stays
done.
-/

namespace ProcessCensus

/-- Why a computation is broken off, leaving its caller without any answer. -/
inductive Abort where
  /-- A record was read in a way its layout does not allow. -/
  | fault (fault : Record.Fault)
  /-- A status line has a closing parenthesis, but only in front of the opening one. -/
  | crossedParentheses
  /-- A buffer was to have more bytes than a machine can address. -/
  | capacityOverflow
  /-- The system itself broke off. -/
  | raised (reason : String)
deriving DecidableEq, Repr

/-- A kernel with what surrounds it: the wall clock in milliseconds of the epoch and the journal,
latest notice first. -/
structure Host (κ : Type) where
  kernel : κ
  clock : Int
  journal : List Notice

/-- A computation that asks a system with the kernel `κ`. -/
abbrev Run (κ : Type) := ExceptT Abort (StateM (Host κ))

/-- A computation that may also fail with a cause. -/
abbrev Attempt (κ : Type) := ExceptT Failure (Run κ)

namespace Run

variable {κ α : Type}

/-- Writes a notice to the journal. -/
def note (notice : Notice) : Run κ Unit :=
  modify fun host => { host with journal := notice :: host.journal }

/-- The wall clock in milliseconds of the epoch; a time before it counts as the epoch. -/
def now : Run κ UInt64 := do
  return UInt64.ofNat (← get).clock.toNat

/-- The state of the kernel. -/
def kernel : Run κ κ := do
  return (← get).kernel

/-- A call that the kernel answers, perhaps changing its state. -/
def call (question : κ → α × κ) : Run κ α :=
  modifyGet fun host =>
    let (answer, kernel) := question host.kernel
    (answer, { host with kernel })

/-- Reads a record, breaking off at a fault. -/
def read (value : Except Record.Fault α) : Run κ α :=
  match value with
  | .ok value => pure value
  | .error fault => throw (.fault fault)

/-- Runs a computation whose breaking off does not break off this one. -/
def settle (run : Run κ α) : Run κ (Except Abort α) :=
  fun host =>
    let (outcome, host) := StateT.run (ExceptT.run run) host
    (.ok outcome, host)

/-- Runs a computation and then changes the kernel, in whatever way the computation ended. -/
def ensuring (run : Run κ α) (change : κ → κ) : Run κ α :=
  fun host =>
    let (outcome, host) := StateT.run (ExceptT.run run) host
    (outcome, { host with kernel := change host.kernel })

/-- The outcome of a computation, and the host after it. -/
def on (run : Run κ α) (host : Host κ) : Except Abort α × Host κ :=
  Id.run (StateT.run (ExceptT.run run) host)

end Run

namespace Attempt

variable {κ α : Type}

/-- A computation that cannot fail, as an attempt. -/
def lift (run : Run κ α) : Attempt κ α :=
  ExceptT.lift run

/-- Writes a notice to the journal. -/
def note (notice : Notice) : Attempt κ Unit :=
  lift (Run.note notice)

/-- A call that the kernel answers, perhaps with a failure. -/
def call (question : κ → Except Failure α × κ) : Attempt κ α :=
  ExceptT.mk (Run.call question)

/-- The outcome of an attempt as a value. -/
def outcome (attempt : Attempt κ α) : Run κ (Except Failure α) :=
  ExceptT.run attempt

/-- The attempt's result, or what `recover` makes of its failure. -/
def recover (attempt : Attempt κ α) (handle : Failure → Run κ α) : Run κ α := do
  match ← attempt.outcome with
  | .ok value => return value
  | .error failure => handle failure

/-- The attempt's result, or nothing and a notice of its failure. -/
def orNote (attempt : Attempt κ α) (notice : Failure → Notice) : Run κ (Option α) :=
  recover (some <$> attempt) fun failure => do
    Run.note (notice failure)
    return none

/-- An attempt, and a change of the kernel after it, in whatever way it ended. -/
def ensuring (attempt : Attempt κ α) (change : κ → κ) : Attempt κ α :=
  ExceptT.mk (Run.ensuring attempt.outcome change)

/-- An attempt with a known outcome. -/
def ofExcept (outcome : Except Failure α) : Attempt κ α :=
  match outcome with
  | .ok value => pure value
  | .error failure => throw failure

end Attempt

end ProcessCensus
