/-!
The stages in the life of a process.
-/

namespace ProcessCensus

/-- The state of a process. -/
inductive RunState where
  | created
  | running
  | sleeping
  | waiting
  | stopped
  | zombie
  | other
  /-- The process has gone, or is not what it was taken for. -/
  | invalid
deriving DecidableEq, Repr

namespace RunState

/-- Every state, in the order of their declaration. -/
def all : List RunState :=
  [created, running, sleeping, waiting, stopped, zombie, other, invalid]

/-- The state of a process about which nothing is known. -/
def default : RunState := invalid

/-- The name shown to people. -/
def name : RunState → String
  | created => "NEW"
  | running => "RUNNING"
  | sleeping => "SLEEPING"
  | waiting => "WAITING"
  | stopped => "STOPPED"
  | zombie => "ZOMBIE"
  | other => "OTHER"
  | invalid => "INVALID"

/-- The tag shown in descriptions of values. -/
def tag : RunState → String
  | created => "New"
  | running => "Running"
  | sleeping => "Sleeping"
  | waiting => "Waiting"
  | stopped => "Stopped"
  | zombie => "Zombie"
  | other => "Other"
  | invalid => "Invalid"

end RunState

end ProcessCensus
