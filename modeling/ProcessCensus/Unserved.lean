import ProcessCensus.Source

/-!
The source for systems about which nothing is known. It knows its own pid and nothing else.
-/

namespace ProcessCensus.Unserved

/-- A system that tells a process nothing but its pid. -/
structure Kernel where
  ownPid : Int32

/-- The attributes of a process: there are none. -/
def attributes (_pid : Int32) (_release : Release) : Run Kernel (Option Attributes) :=
  return none

/-- The release of the system, which cannot be asked for. -/
def releaseText : Attempt Kernel String :=
  throw (.unsupported "operating system version query")

/-- The source without a system behind it. -/
def source : Source Kernel where
  platform := .unserved
  list := throw (.unsupported "process enumeration")
  currentPid := do return (← Run.kernel).ownPid
  attributes
  batch := Source.readEach attributes
  invocation := fun _ => return .empty

end ProcessCensus.Unserved
