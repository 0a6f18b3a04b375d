import ProcessCensus.Text.Utf16
import ProcessCensus.Windows.Kernel

/-!
What Windows tells about the machine it runs on.
-/

namespace ProcessCensus.Windows

/-- Units in the buffer for the name of the computer. -/
def maxComputerName : Nat := 64

/-- Units in the buffer for a path. -/
def maxLongPath : Nat := 32768

/-- The name of the computer. -/
def computerName : Attempt Kernel String := do
  match (← Attempt.lift Run.kernel).computerName with
  | .ok name => return Text.wideString (name.take maxComputerName)
  | .error code => throw (.native "GetComputerNameW" code)

/-- The directory for temporary files. An empty one is none. -/
def tempPath : Attempt Kernel String := do
  match (← Attempt.lift Run.kernel).tempPath with
  | .ok [] => throw (.native "GetTempPathW" Kernel.refused)
  | .ok path => return Text.wideString (path.take maxLongPath)
  | .error code => throw (.native "GetTempPathW" code)

/-- The release of the system. There is no question to which it would answer truthfully to every
program, so it is not asked. -/
def releaseText : Attempt Kernel String :=
  throw (.unsupported "operating system version query")

end ProcessCensus.Windows
