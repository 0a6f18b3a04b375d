import ProcessCensus.Source
import ProcessCensus.Windows.CommandLine
import ProcessCensus.Windows.Machine
import ProcessCensus.Windows.Resolver

/-!
The source that reads processes from a Windows system. A single look takes a copy of the process
table of its own; a batch shares one copy.
-/

namespace ProcessCensus.Windows

/-- The pids of all processes, in ascending order. -/
def listPids : Attempt Kernel (List Int32) :=
  Table.pids <$> readTable

/-- The attributes of several processes as of one copy of the process table. They do not depend on
the release. Without a table there are none. -/
def batch (pids : List Int32) (_release : Release) : Run Kernel (List (Option Attributes)) := do
  match ← readTable.outcome with
  | .ok table => pids.mapM fun pid => (resolve table pid).orNote (.processUnreadable pid)
  | .error failure =>
    Run.note (.callFailed failure)
    return List.replicate pids.length none

/-- The attributes of one process. -/
def attributes (pid : Int32) (release : Release) : Run Kernel (Option Attributes) := do
  return (← batch [pid] release).getLast?.join

/-- The source on Windows. -/
def source : Source Kernel where
  platform := .windows
  list := listPids
  currentPid := do return (← Run.kernel).ownPid
  attributes
  batch
  invocation

end ProcessCensus.Windows
