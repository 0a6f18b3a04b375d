import ProcessCensus.Source

/-!
A process as it was when it was last looked at. Its attributes are replaced as a whole by another
look. Arguments and environment cost more to read, so they are read when somebody asks for them, and
kept until the next look.
-/

namespace ProcessCensus

/-- The last look at a process. -/
structure Snapshot where
  pid : Int32
  release : Release
  attributes : Attributes
  /-- Arguments and environment, once they have been read. -/
  invocation : Option Invocation
  /-- The joined arguments, once somebody has asked for them. -/
  commandLine : Option String
deriving DecidableEq

namespace Snapshot

variable {κ : Type}

/-- The snapshot for the attributes that a source answered. -/
def ofAnswer (pid : Int32) (release : Release) (answer : Option Attributes) : Run κ Snapshot := do
  let now ← Run.now
  return {
    pid, release
    attributes := .validated answer now
    invocation := none
    commandLine := none }

/-- Looks at a process. One that cannot be read gives an invalid snapshot. -/
def probe (source : Source κ) (pid : Int32) (release : Release) : Run κ Snapshot := do
  ofAnswer pid release (← source.attributes pid release)

/-- Looks at the process again. -/
def refresh (source : Source κ) (snapshot : Snapshot) : Run κ Snapshot :=
  probe source snapshot.pid snapshot.release

/-- Whether the process was there. -/
def isValid (snapshot : Snapshot) : Bool :=
  snapshot.attributes.state != .invalid

/-- Arguments and environment, read now unless they have been read, and the snapshot that keeps
them. -/
def readInvocation (source : Source κ) (snapshot : Snapshot) : Run κ (Invocation × Snapshot) := do
  match snapshot.invocation with
  | some invocation => return (invocation, snapshot)
  | none =>
    let invocation ← source.invocation snapshot.pid
    return (invocation, { snapshot with invocation := some invocation })

/-- The arguments joined by single spaces, and the snapshot that keeps them. -/
def readCommandLine (source : Source κ) (snapshot : Snapshot) : Run κ (String × Snapshot) := do
  match snapshot.commandLine with
  | some line => return (line, snapshot)
  | none =>
    let (invocation, snapshot) ← snapshot.readInvocation source
    let line := Invocation.commandLine invocation.arguments
    return (line, { snapshot with commandLine := some line })

/-- The time the process has spent on a processor. -/
def processorTime (snapshot : Snapshot) : UInt64 :=
  snapshot.attributes.kernelTime + snapshot.attributes.userTime

/-- The part of its life that the process has spent on a processor, as the double nearest to the
quotient of the doubles nearest to the two times. It is 0 for a process that has not been up. -/
def load (snapshot : Snapshot) : Float :=
  if snapshot.attributes.upTime = 0 then 0
  else snapshot.processorTime.toFloat / snapshot.attributes.upTime.toFloat

/-- The snapshot in words. -/
def describe (source : Source κ) (snapshot : Snapshot) : String :=
  Text.describePartly "ProcessSnapshot"
    [("pid", toString snapshot.pid), ("platform", source.platform.tag),
     ("attributes", snapshot.attributes.describe)]

end Snapshot

end ProcessCensus
