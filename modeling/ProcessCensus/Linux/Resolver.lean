import ProcessCensus.Linux.Kernel
import ProcessCensus.Linux.Listing
import ProcessCensus.Linux.Stat
import ProcessCensus.Process.Attributes
import ProcessCensus.Record.Image
import ProcessCensus.Record.Read

/-!
Attributes of a process on Linux. They come from many files and links, and only two of these matter
for whether there is a process at all: the status line and the process a task belongs to. What
cannot be read of the others leaves its own attributes at their defaults.
-/

namespace ProcessCensus.Linux

/-- What the files and links of one process say. -/
structure Readings where
  /-- The status line. -/
  stat : Except Refusal (List Char)
  /-- The file with the owner and other attributes by name. -/
  status : Option (List Char)
  /-- The text of the link to the executable. -/
  executable : Option Bytes
  /-- The executable itself. -/
  image : Option Bytes
  /-- The text of the link to the working directory. -/
  workingDirectory : Option Bytes
  /-- The file with the counters of bytes. -/
  io : Option (List Char)
  /-- The number of entries in the directory of open files. -/
  openFiles : Option Nat

/-- What the files and links of a process say. -/
def Tree.readings (tree : Tree) (pid : Int32) : Readings where
  stat := tree.readText (.ofProcess pid "stat")
  status := (tree.readText (.ofProcess pid "status")).toOption
  executable := tree.readLink (.ofProcess pid "exe")
  image := (tree.read (.ofProcess pid "exe")).toOption
  workingDirectory := tree.readLink (.ofProcess pid "cwd")
  io := (tree.readText (.ofProcess pid "io")).toOption
  openFiles := (tree.list (.ofProcess pid "fd")).map List.length

/-- The largest 64-bit number. -/
def maxWord : Nat := UInt64.size - 1

/-- The product of a number and a factor, or the largest number if it is larger than that. -/
def saturatingMul (a : UInt64) (factor : Nat) : UInt64 :=
  UInt64.ofNat (min maxWord (a.toNat * factor))

/-- Clock ticks in milliseconds, where a second has `rate` of them. A rate of 0 counts as 1. -/
def ticksToMillis (rate ticks : UInt64) : UInt64 :=
  UInt64.ofNat ((saturatingMul ticks 1000).toNat / max 1 rate.toNat)

/-- The path of the executable. The kernel marks one that was deleted; the mark is no part of the
path. -/
def executablePath (link : Option Bytes) : List Char :=
  match link with
  | some target =>
    let path := Text.Utf8.decodeLossy target
    Text.dropSuffixes " (deleted)".toList path.length path
  | none => []

/-- The name of a process: the last component of its path, or its command name. -/
def processName (path : List Char) (command : Option (List Char)) : List Char :=
  let base := Text.lastComponent '/' path
  if base.isEmpty then command.getD [] else base

/-- The width of an address in an executable, and 0 if it is no executable. -/
def bitness (image : Option Bytes) : Except Record.Fault UInt32 :=
  match image with
  | none => .ok 0
  | some image =>
    let head := image.take Record.imageIdent.size
    if head.length < Record.imageIdent.size ∨ head.take 4 ≠ [0x7f, 0x45, 0x4c, 0x46] then .ok 0
    else (Record.imageIdent.readUInt8 head "ei_class").map fun width =>
      if width = 1 then 32 else if width = 2 then 64 else 0

/-- A 64-bit id as one of 32 bits, if it is one. -/
def narrowId? (id : UInt64) : Option UInt32 :=
  if id.toNat < UInt32.size then some id.toUInt32 else none

/-- The name of the owner that a database knows. -/
def ownerName (find : UInt32 → Run Kernel (Option String)) (id : UInt64) :
    Run Kernel (Option String) :=
  match narrowId? id with
  | some id => find id
  | none => return none

/-- The attributes of a process, from what its files and links say. -/
def resolve (pid : Int32) (readings : Readings) : Attempt Kernel Attributes := do
  let line ← match readings.stat with
    | .ok line => pure line
    | .error refusal => throw (.refused "read /proc/<pid>/stat" refusal)
  let fields ← match Stat.split? line with
    | some fields => pure fields
    | none => Attempt.lift (throw .crossedParentheses)
  let number (index : Nat) : Attempt Kernel UInt64 := .ofExcept (Stat.number fields index)
  let integer (index : Nat) : Attempt Kernel Int32 := .ofExcept (Stat.integer fields index)
  let threads ← number Stat.threadsField
  if threads = 0 then throw (.malformed "/proc/<pid>/stat" "no threads")
  let status := Listing.ofText (readings.status.getD [])
  if let some owner := status.pid? "Tgid" then
    if owner ≠ pid then
      throw (.malformed "/proc/<pid>/status" s!"{pid} is a thread of process {owner}")
  let path := executablePath readings.executable
  let startTicks ← number Stat.startTicksField
  let kernel ← Attempt.lift Run.kernel
  let userId := status.number "Uid"
  let groupId := status.number "Gid"
  let user ← Attempt.lift (ownerName (Accounts.userName kernel.users) userId)
  let group ← Attempt.lift (ownerName (Accounts.groupName kernel.groups) groupId)
  let parent ← integer Stat.parentField
  let priority ← integer Stat.priorityField
  let virtualSize ← number Stat.virtualSizeField
  let residentPages ← number Stat.residentPagesField
  let kernelTicks ← number Stat.kernelTicksField
  let userTicks ← number Stat.userTicksField
  let boot ← Attempt.lift bootTime
  let bitness ← Attempt.lift (Run.read (bitness readings.image))
  let minorFaults ← number Stat.minorFaultsField
  let majorFaults ← number Stat.majorFaultsField
  let io := Listing.ofText (readings.io.getD [])
  return {
    name := String.ofList (processName path (fields[Stat.nameField]?))
    path := String.ofList path
    workingDirectory := readings.workingDirectory.map Text.Utf8.text
    user
    userId := toString userId
    group
    groupId := toString groupId
    state := Stat.state fields
    parent
    threads := UInt32.ofNat (min (UInt32.size - 1) threads.toNat)
    priority
    virtualSize
    residentSize := saturatingMul residentPages kernel.pageSize.toNat
    kernelTime := ticksToMillis kernel.clockTicks kernelTicks
    userTime := ticksToMillis kernel.clockTicks userTicks
    startTime := boot * 1000 + ticksToMillis kernel.clockTicks startTicks
    upTime := 0
    openFiles := UInt64.ofNat (readings.openFiles.getD 0)
    bitness
    minorFaults
    majorFaults
    contextSwitches :=
      status.number "voluntary_ctxt_switches" + status.number "nonvoluntary_ctxt_switches"
    bytesRead := io.number "read_bytes"
    bytesWritten := io.number "write_bytes" }

end ProcessCensus.Linux
