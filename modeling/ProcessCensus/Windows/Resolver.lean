import ProcessCensus.Process.Attributes
import ProcessCensus.Record.Read
import ProcessCensus.Text.Split
import ProcessCensus.Windows.Table

/-!
Attributes of a process on Windows. The row of the process table has some of them. A handle of the
process reveals the others, each by a call of its own; a call that fails leaves its own attributes at
their defaults.
-/

namespace ProcessCensus.Windows

/-- Memory counters of a process, in bytes but for the faults. -/
structure MemoryCounters where
  virtualSize : UInt64
  residentSize : UInt64
  faults : UInt32
deriving DecidableEq

/-- No memory at all. -/
def MemoryCounters.none : MemoryCounters := ⟨0, 0, 0⟩

/-- Reads memory counters from their record. -/
def MemoryCounters.ofRecord (record : Bytes) : Except Record.Fault MemoryCounters := do
  let layout := Record.memoryCounters
  let virtualSize ← layout.readAddress record "VirtualSize"
  let residentSize ← layout.readAddress record "WorkingSetSize"
  let faults ← layout.readUInt32 record "PageFaultCount"
  return { virtualSize, residentSize, faults }

/-- The path of the executable. -/
def Handle.readPath (handle : Handle) : Except Failure String :=
  (handle.path.map Text.Utf16.text).mapError (.native "QueryFullProcessImageNameW" ·)

/-- The memory counters. What the system does not write of their record is zero. -/
def Handle.readMemory (handle : Handle) : Attempt Kernel MemoryCounters := do
  let (status, content) := handle.memory
  if status ≠ 0 then throw (.native "NtQueryInformationProcess" status)
  let record := (Sizing.Buffer.ofWritten 0 content Record.memoryCounters.size).toList
  Attempt.lift (Run.read (MemoryCounters.ofRecord record))

/-- What an attempt yields, or `fallback` and a notice. -/
def orNoted {α : Type} (attempt : Attempt Kernel α) (fallback : α) : Run Kernel α :=
  attempt.recover fun failure => do
    Run.note (.callFailed failure)
    return fallback

/-- The width of an address in a process that runs or does not run on an emulator. -/
def bitnessOf (emulated : UInt32) : UInt32 :=
  if emulated = 0 then 64 else 32

/-- The attributes that a row of the process table has. -/
def Row.attributes (row : Row) : Attributes :=
  { Attributes.unknown with
    name := row.file
    state := .running
    parent := row.parent
    threads := row.threads
    priority := row.priority }

/-- The attributes with the answers to the calls on a handle, of which those for the path and for the
memory have been read. -/
def Handle.enter (handle : Handle) (path : String) (memory : MemoryCounters)
    (attributes : Attributes) : Attributes :=
  let times := handle.times.toOption
  let transfers := handle.transfers.toOption
  { attributes with
    path
    startTime := (times.map (·.creation.epochMillis)).getD attributes.startTime
    kernelTime := (times.map (·.kernel.millis)).getD attributes.kernelTime
    userTime := (times.map (·.user.millis)).getD attributes.userTime
    virtualSize := memory.virtualSize
    residentSize := memory.residentSize
    minorFaults := memory.faults.toUInt64
    bytesRead := (transfers.map (·.1)).getD attributes.bytesRead
    bytesWritten := (transfers.map (·.2)).getD attributes.bytesWritten
    openFiles := (handle.handles.toOption.map (·.toUInt64)).getD attributes.openFiles
    bitness := (handle.emulated.toOption.map bitnessOf).getD attributes.bitness }

/-- The attributes with what a handle reveals. -/
def Handle.reveal (handle : Handle) (attributes : Attributes) : Run Kernel Attributes := do
  let path ← orNoted (.ofExcept handle.readPath) attributes.path
  let memory ← orNoted handle.readMemory .none
  return handle.enter path memory attributes

/-- The attributes with name and path made to agree: the name is the last component of the path, and
a process without a path has its name for one. -/
def settleName (attributes : Attributes) : Attributes :=
  if attributes.path.isEmpty then { attributes with path := attributes.name }
  else
    let base := Text.lastComponent '\\' attributes.path.toList
    if base.isEmpty then attributes else { attributes with name := String.ofList base }

/-- The attributes of a process with a row in the process table. A process that turns out to be gone
has none. One that may not be opened has those of its row. -/
def resolveRow (pid : Int32) (row : Row) : Attempt Kernel Attributes := do
  match ← Attempt.lift (openProcess pid).outcome with
  | .ok handle =>
    Attempt.ensuring (do
      checkThreads
      settleName <$> Attempt.lift (handle.reveal row.attributes)) Kernel.closeHandle
  | .error failure =>
    checkThreads
    if failure.isGone .windows then throw failure
    Attempt.note (.processUnreadable pid failure)
    return settleName row.attributes
where
  checkThreads : Attempt Kernel Unit :=
    if row.threads = 0 then throw (.malformed "PROCESSENTRY32W" "no threads") else pure ()

/-- The attributes of a process, given the process table. -/
def resolve (table : Table) (pid : Int32) : Attempt Kernel Attributes :=
  match table.lookup pid with
  | some row => resolveRow pid row
  | none => throw (.native "Process32NextW" Kernel.noSuchProcess)

end ProcessCensus.Windows
