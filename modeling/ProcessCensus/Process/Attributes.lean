import ProcessCensus.Process.State
import ProcessCensus.Text.Describe

/-!
What one look at a process tells about it.
-/

namespace ProcessCensus

/-- Attributes of a process. Sizes are in bytes, times in milliseconds. -/
structure Attributes where
  name : String
  path : String
  workingDirectory : Option String
  user : Option String
  userId : String
  group : Option String
  groupId : String
  state : RunState
  parent : Int32
  threads : UInt32
  priority : Int32
  virtualSize : UInt64
  residentSize : UInt64
  kernelTime : UInt64
  userTime : UInt64
  /-- Counted from the epoch; 0 if it is not known. -/
  startTime : UInt64
  upTime : UInt64
  openFiles : UInt64
  /-- The width of an address, 32 or 64; 0 if it is not known. -/
  bitness : UInt32
  minorFaults : UInt64
  majorFaults : UInt64
  contextSwitches : UInt64
  bytesRead : UInt64
  bytesWritten : UInt64
deriving DecidableEq

namespace Attributes

/-- The attributes of a process about which nothing is known. -/
def unknown : Attributes where
  name := ""
  path := ""
  workingDirectory := none
  user := none
  userId := ""
  group := none
  groupId := ""
  state := .default
  parent := 0
  threads := 0
  priority := 0
  virtualSize := 0
  residentSize := 0
  kernelTime := 0
  userTime := 0
  startTime := 0
  upTime := 0
  openFiles := 0
  bitness := 0
  minorFaults := 0
  majorFaults := 0
  contextSwitches := 0
  bytesRead := 0
  bytesWritten := 0

/-- Whether these can be the attributes of a live process: it has a state, and a thread at least. -/
def isLive (attributes : Attributes) : Bool :=
  0 < attributes.threads && attributes.state != .invalid

/-- How long a process that started at `start` has been up at `now`. It is 0 if the start is not
known or lies in the future. -/
def elapsed (start now : UInt64) : UInt64 :=
  if start = 0 ∨ now < start then 0 else now - start

/-- The attributes that a source answered, made valid at the time `now`: with the time the process
has been up if it is live, and the unknown ones otherwise. -/
def validated (answer : Option Attributes) (now : UInt64) : Attributes :=
  match answer with
  | some attributes =>
    if attributes.isLive then { attributes with upTime := elapsed attributes.startTime now }
    else unknown
  | none => unknown

/-- The attributes in words. -/
def describe (a : Attributes) : String :=
  let optional := Text.describeOption Text.quoted
  Text.describeStructure "ProcessAttributes"
    [("name", Text.quoted a.name), ("path", Text.quoted a.path),
     ("current_working_directory", optional a.workingDirectory), ("user", optional a.user),
     ("user_id", Text.quoted a.userId), ("group", optional a.group),
     ("group_id", Text.quoted a.groupId), ("state", a.state.tag),
     ("parent_process_id", toString a.parent), ("thread_count", toString a.threads),
     ("priority", toString a.priority), ("virtual_size", toString a.virtualSize),
     ("resident_set_size", toString a.residentSize), ("kernel_time", toString a.kernelTime),
     ("user_time", toString a.userTime), ("start_time", toString a.startTime),
     ("up_time", toString a.upTime), ("open_files", toString a.openFiles),
     ("bitness", toString a.bitness), ("minor_faults", toString a.minorFaults),
     ("major_faults", toString a.majorFaults), ("context_switches", toString a.contextSwitches),
     ("bytes_read", toString a.bytesRead), ("bytes_written", toString a.bytesWritten)]

end Attributes

end ProcessCensus
