import ProcessCensus.Census.Basic

/-!
A caller at work: it looks at processes one after the other and keeps snapshots in numbered slots. A
command that breaks off leaves the slots as they were.
-/

namespace ProcessCensus

/-- The census that a caller takes, the host it works with, and the snapshots it keeps. -/
structure Session (κ : Type) where
  census : Census κ
  host : Host κ
  slots : List (Nat × Snapshot)

namespace Session

variable {κ α : Type}

/-- The snapshot in a slot. -/
def slot? (session : Session κ) (slot : Nat) : Option Snapshot :=
  session.slots.lookup slot

/-- The session with a snapshot kept in a slot. -/
def keep (session : Session κ) (slot : Nat) (snapshot : Snapshot) : Session κ :=
  { session with slots := (slot, snapshot) :: session.slots.filter (·.1 != slot) }

/-- What a caller can do. -/
inductive Command where
  /-- Looks at a process and keeps it if it is there. -/
  | get (pid : Int32) (slot : Nat)
  /-- Looks at its own process and keeps it. -/
  | current (slot : Nat)
  /-- Looks at a process and keeps what was seen, even if it was not there. -/
  | probe (pid : Int32) (slot : Nat)
  /-- Looks again at the process in a slot. -/
  | refresh (slot : Nat)
  /-- Asks for the arguments of the process in a slot. -/
  | arguments (slot : Nat)
  /-- Asks for the environment of the process in a slot. -/
  | environment (slot : Nat)
  /-- Asks for the joined arguments of the process in a slot. -/
  | commandLine (slot : Nat)
  /-- Keeps the snapshot of one slot in another slot, too. -/
  | copy (source target : Nat)
deriving DecidableEq

/-- What a caller is answered. -/
inductive Answer where
  /-- What was seen; nothing if the process was not there. -/
  | seen (snapshot : Option Snapshot)
  /-- Whether the process was still there, and what was seen. -/
  | refreshed (valid : Bool) (snapshot : Snapshot)
  | arguments (arguments : List String)
  | environment (environment : Environment)
  | commandLine (line : String)
  /-- There is nothing to tell. -/
  | done

/-- A command on the snapshot in a slot: its answer, and the snapshot that takes its place. -/
def Command.onSlot (source : Source κ) (snapshot : Snapshot) :
    Command → Run κ (Answer × Snapshot)
  | .refresh _ => do
    let next ← snapshot.refresh source
    return (.refreshed next.isValid next, next)
  | .arguments _ => do
    let (invocation, next) ← snapshot.readInvocation source
    return (.arguments invocation.arguments, next)
  | .environment _ => do
    let (invocation, next) ← snapshot.readInvocation source
    return (.environment invocation.environment, next)
  | .commandLine _ => do
    let (line, next) ← snapshot.readCommandLine source
    return (.commandLine line, next)
  | _ => return (.done, snapshot)

/-- The slot whose snapshot a command needs. -/
def Command.needs : Command → Option Nat
  | .refresh slot => some slot
  | .arguments slot => some slot
  | .environment slot => some slot
  | .commandLine slot => some slot
  | .copy source _ => some source
  | _ => none

/-- The slot in which a command keeps a snapshot. -/
def Command.target : Command → Nat
  | .get _ slot => slot
  | .current slot => slot
  | .probe _ slot => slot
  | .refresh slot => slot
  | .arguments slot => slot
  | .environment slot => slot
  | .commandLine slot => slot
  | .copy _ target => target

/-- The answer to a command, and the snapshot to keep, where `held` is the one in the slot that the
command needs. -/
def Command.run (census : Census κ) (held : Option Snapshot) (command : Command) :
    Run κ (Answer × Option Snapshot) := do
  match command with
  | .get pid _ =>
    let seen ← census.get pid
    return (.seen seen, seen)
  | .current _ =>
    let seen ← census.currentProcess
    return (.seen seen, seen)
  | .probe pid _ =>
    let seen ← Snapshot.probe census.source pid census.release
    return (.seen (some seen), some seen)
  | command =>
    match held with
    | some snapshot =>
      let (answer, next) ← command.onSlot census.source snapshot
      return (answer, some next)
    | none => return (.done, none)

/-- Runs something that keeps no snapshot. -/
def run (session : Session κ) (task : Run κ α) : Except Abort α × Session κ :=
  let (outcome, host) := task.on session.host
  (outcome, { session with host })

/-- The session with the release that the system tells at the moment. The snapshots in the slots
keep the release with which they were taken. -/
def detect (session : Session κ) (tell : Attempt κ String) : Session κ :=
  match session.run (Release.detect tell) with
  | (.ok release, session) => { session with census := { session.census with release } }
  | (.error _, session) => session

/-- Runs a command and keeps the snapshot that it yields. -/
def command (session : Session κ) (command : Command) : Except Abort Answer × Session κ :=
  match session.run (command.run session.census (command.needs.bind session.slot?)) with
  | (.ok (answer, some snapshot), session) => (.ok answer, session.keep command.target snapshot)
  | (.ok (answer, none), session) => (.ok answer, session)
  | (.error abort, session) => (.error abort, session)

end Session

end ProcessCensus
