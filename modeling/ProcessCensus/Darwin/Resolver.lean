import ProcessCensus.Darwin.Clock
import ProcessCensus.Process.Attributes
import ProcessCensus.Record.Darwin
import ProcessCensus.Record.Read
import ProcessCensus.Text.Split

/-!
Attributes of a process on Darwin. Most of them come from one record; a few other calls add the
rest, and a call that fails leaves its own attributes at their defaults.
-/

namespace ProcessCensus.Darwin

/-- The kinds of records about a process. -/
def taskFlavor : Nat := 2
def pathsFlavor : Nat := 9
def usageFlavor : Nat := 2

/-- The longest path of an executable, in bytes. -/
def maxPath : Nat := 4096

/-- The flag of a process whose addresses have 64 bits. -/
def wideFlag : UInt32 := 4

/-- What the record about a process and its task says. -/
structure TaskRecord where
  flags : UInt32
  status : UInt32
  parent : UInt32
  userId : UInt32
  groupId : UInt32
  command : String
  openFiles : UInt32
  startSeconds : UInt64
  startMicroseconds : UInt64
  virtualSize : UInt64
  residentSize : UInt64
  userTime : UInt64
  kernelTime : UInt64
  faults : Int32
  pageIns : Int32
  switches : Int32
  threads : Int32
  priority : Int32
deriving DecidableEq

/-- Reads the record about a process and its task. -/
def TaskRecord.ofBytes (buffer : Bytes) : Except Record.Fault TaskRecord := do
  let record := Record.processTaskInfo
  return {
    flags := ← record.readUInt32 buffer "pbsd.pbi_flags"
    status := ← record.readUInt32 buffer "pbsd.pbi_status"
    parent := ← record.readUInt32 buffer "pbsd.pbi_ppid"
    userId := ← record.readUInt32 buffer "pbsd.pbi_uid"
    groupId := ← record.readUInt32 buffer "pbsd.pbi_gid"
    command := ← record.readCString buffer "pbsd.pbi_comm"
    openFiles := ← record.readUInt32 buffer "pbsd.pbi_nfiles"
    startSeconds := ← record.readUInt64 buffer "pbsd.pbi_start_tvsec"
    startMicroseconds := ← record.readUInt64 buffer "pbsd.pbi_start_tvusec"
    virtualSize := ← record.readUInt64 buffer "ptinfo.pti_virtual_size"
    residentSize := ← record.readUInt64 buffer "ptinfo.pti_resident_size"
    userTime := ← record.readUInt64 buffer "ptinfo.pti_total_user"
    kernelTime := ← record.readUInt64 buffer "ptinfo.pti_total_system"
    faults := ← record.readInt32 buffer "ptinfo.pti_faults"
    pageIns := ← record.readInt32 buffer "ptinfo.pti_pageins"
    switches := ← record.readInt32 buffer "ptinfo.pti_csw"
    threads := ← record.readInt32 buffer "ptinfo.pti_threadnum"
    priority := ← record.readInt32 buffer "ptinfo.pti_priority" }

/-- The state that a status number stands for. -/
def stateOf (status : UInt32) : RunState :=
  if status = 1 then .created
  else if status = 2 then .running
  else if status = 3 then .sleeping
  else if status = 4 then .stopped
  else if status = 5 then .zombie
  else .other

/-- A count that the kernel keeps as a signed number; a negative one counts as 0. -/
def countOf (value : Int32) : UInt64 :=
  UInt64.ofNat value.toNatClampNeg

/-- Seconds and microseconds of the epoch in milliseconds. -/
def startMillis (seconds microseconds : UInt64) : UInt64 :=
  seconds * 1000 + microseconds / 1000

/-- The difference of two counts, and 0 if it is negative. -/
def excess (a b : UInt64) : UInt64 :=
  if a < b then 0 else a - b

/-- A record about a process, as long as its layout. A shorter answer is malformed. -/
def processRecord (pid : Int32) (flavor : Nat) (layout : Record.Layout) :
    Attempt Kernel Bytes := do
  let written ← perform "proc_pidinfo" (.processInfo pid flavor) layout.size
  if written.count ≤ 0 then throw (.native "proc_pidinfo" Kernel.noError)
  if written.count < layout.size then
    throw (.malformed layout.name s!"{written.count} of {layout.size} bytes")
  return (written.buffer layout.size).toList

/-- The path of the executable of a process. -/
def processPath (pid : Int32) : Attempt Kernel String := do
  let written ← perform "proc_pidpath" (.processPath pid) maxPath
  if written.count ≤ 0 then throw (.native "proc_pidpath" Kernel.noError)
  return Text.cString (written.buffer (min maxPath written.count.toNat)).toList

/-- The bytes that a process has read and written, if the kernel counts them. -/
def diskUsage (pid : Int32) (release : Release) : Attempt Kernel (UInt64 × UInt64) := do
  match Record.resourceUsageFor release with
  | none => return (0, 0)
  | some layout =>
    let written ← perform "proc_pid_rusage" (.resourceUsage pid usageFlavor) layout.size
    let buffer := (written.buffer layout.size).toList
    let read ← Attempt.lift (Run.read (layout.readUInt64 buffer "ri_diskio_bytesread"))
    let write ← Attempt.lift (Run.read (layout.readUInt64 buffer "ri_diskio_byteswritten"))
    return (read, write)

/-- The working directory of a process. -/
def workingDirectory (pid : Int32) : Attempt Kernel String := do
  let buffer ← processRecord pid pathsFlavor Record.processPaths
  Attempt.lift (Run.read (Record.processPaths.readCString buffer "pvi_cdir.vip_path"))

/-- The name of a process: the last component of its path, or its command name. -/
def processName (path command : String) : String :=
  let base := Text.lastComponent '/' path.toList
  if base.isEmpty then command else String.ofList base

/-- What an attempt yields, or `fallback` without a notice. -/
def orElse {α : Type} (attempt : Attempt Kernel α) (fallback : α) : Run Kernel α :=
  attempt.recover fun _ => return fallback

/-- What the calls beside the one for the record tell about a process. -/
structure Additions where
  path : String
  directory : Option String
  user : Option String
  group : Option String
  bytesRead : UInt64
  bytesWritten : UInt64
deriving DecidableEq

/-- The attributes of a process with this record. -/
def TaskRecord.attributes (record : TaskRecord) (timebase : Timebase) (additions : Additions) :
    Attributes where
  name := processName additions.path record.command
  path := additions.path
  workingDirectory := additions.directory
  user := additions.user
  userId := toString record.userId
  group := additions.group
  groupId := toString record.groupId
  state := stateOf record.status
  parent := record.parent.toInt32
  threads := record.threads.toUInt32
  priority := record.priority
  virtualSize := record.virtualSize
  residentSize := record.residentSize
  kernelTime := timebase.toMillis record.kernelTime
  userTime := timebase.toMillis record.userTime
  startTime := startMillis record.startSeconds record.startMicroseconds
  upTime := 0
  openFiles := record.openFiles.toUInt64
  bitness := if record.flags &&& wideFlag = 0 then 32 else 64
  minorFaults := excess (countOf record.faults) (countOf record.pageIns)
  majorFaults := countOf record.pageIns
  contextSwitches := countOf record.switches
  bytesRead := additions.bytesRead
  bytesWritten := additions.bytesWritten

/-- The record about a process and its task, which has a thread at least. -/
def taskRecord (pid : Int32) : Attempt Kernel TaskRecord := do
  let buffer ← processRecord pid taskFlavor Record.processTaskInfo
  let record ← Attempt.lift (Run.read (TaskRecord.ofBytes buffer))
  if record.threads ≤ 0 then throw (.malformed Record.processTaskInfo.name "no threads")
  return record

/-- The attributes of a process. -/
def resolve (pid : Int32) (release : Release) : Attempt Kernel Attributes := do
  let record ← taskRecord pid
  let path ← Attempt.lift (orElse (processPath pid) "")
  let (bytesRead, bytesWritten) ← Attempt.lift (orElse (diskUsage pid release) (0, 0))
  let directory ← Attempt.lift (orElse (some <$> workingDirectory pid) none)
  let kernel ← Attempt.lift Run.kernel
  let user ← Attempt.lift (Accounts.userName kernel.users record.userId)
  let group ← Attempt.lift (Accounts.groupName kernel.groups record.groupId)
  let timebase ← Attempt.lift timebase
  return record.attributes timebase { path, directory, user, group, bytesRead, bytesWritten }

end ProcessCensus.Darwin
