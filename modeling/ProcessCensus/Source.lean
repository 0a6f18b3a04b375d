import ProcessCensus.Invocation
import ProcessCensus.Process.Attributes
import ProcessCensus.Release
import ProcessCensus.Run

/-!
What a system offers for reading its processes.
-/

namespace ProcessCensus

/-- The means to read the processes of a system with the kernel `κ`. A process that has gone is no
failure: its attributes are absent, its arguments empty. -/
structure Source (κ : Type) where
  platform : Platform
  /-- The pids that the kernel knows at the moment. -/
  list : Attempt κ (List Int32)
  /-- The pid of the process that asks. -/
  currentPid : Run κ Int32
  /-- The attributes of one process, on a system of the given release. -/
  attributes : Int32 → Release → Run κ (Option Attributes)
  /-- The attributes of several processes in their order, as seen at one moment. -/
  batch : List Int32 → Release → Run κ (List (Option Attributes))
  /-- The arguments and the environment of a process. -/
  invocation : Int32 → Run κ Invocation

namespace Source

variable {κ : Type}

/-- A batch that reads one process after the other. -/
def readEach (attributes : Int32 → Release → Run κ (Option Attributes)) (pids : List Int32)
    (release : Release) : Run κ (List (Option Attributes)) :=
  pids.mapM (attributes · release)

end Source

end ProcessCensus
