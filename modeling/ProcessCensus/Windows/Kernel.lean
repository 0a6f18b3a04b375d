import ProcessCensus.Record.Windows
import ProcessCensus.Record.Write
import ProcessCensus.Sizing.Basic
import ProcessCensus.Windows.FileTime

/-!
A Windows system whose answers to every call are laid down in advance. It also keeps account of what
callers hold: handles that they have not closed and argument vectors that they have not freed.
-/

namespace ProcessCensus.Windows

/-- When a process was created, and the times it has spent in the kernel and in its own code. -/
structure Times where
  creation : FileTime
  kernel : FileTime
  user : FileTime
deriving DecidableEq

/-- What the system answers when it is asked for the command line of a process. -/
structure LineAnswer where
  /-- The status of the call without a buffer, and the size that it tells. -/
  sizeStatus : Int32
  needed : UInt32
  /-- The status of the call with a buffer. -/
  status : Int32
  /-- The length that the header announces, in bytes. -/
  length : UInt16
  /-- Where the header says that the text is, counted from the start of the answer. -/
  offset : Int
  /-- What follows the header. -/
  body : Bytes
  /-- The count of bytes that the call reports, if it is not the count of those it wrote. -/
  reported : Option UInt32
deriving DecidableEq

/-- What a handle of a process reveals. Most answers may be an error code instead. -/
structure Handle where
  path : Except Int32 (List UInt16)
  times : Except Int32 Times
  /-- A status, and what is written to the record of memory counters if it is 0. -/
  memory : Int32 × Bytes
  /-- Bytes read and written. -/
  transfers : Except Int32 (UInt64 × UInt64)
  handles : Except Int32 UInt32
  /-- Whether the process runs on an emulator of narrower machines: any number but 0. -/
  emulated : Except Int32 UInt32
  commandLine : Option LineAnswer

/-- How a command line is split. -/
inductive Splitting where
  /-- It is one argument as it stands. -/
  | whole
  /-- It is not split at all. -/
  | refused
  /-- Its arguments are laid down. -/
  | into (arguments : List (List UInt16))

/-- A Windows system. -/
structure Kernel where
  /-- The error code with which a copy of the process table is refused, if it is. -/
  tableRefusal : Option Int32
  /-- The error code with which its first row is refused, if it is. -/
  rowRefusal : Option Int32
  /-- The records of the rows. -/
  rows : List Bytes
  /-- The processes that can be opened, or the error codes with which they are refused. -/
  processes : List (Int32 × Except Int32 Handle)
  splitting : Splitting
  computerName : Except Int32 (List UInt16)
  tempPath : Except Int32 (List UInt16)
  ownPid : Int32
  /-- The address at which callers have their buffers. -/
  bufferAddress : UInt64
  /-- Handles that are open now. -/
  openHandles : Nat
  /-- Handles that have been opened so far. -/
  handlesOpened : Nat
  /-- Copies of the process table that have been taken so far. -/
  tablesTaken : Nat
  /-- Argument vectors that have been handed out and not freed. -/
  vectors : Nat
  /-- The command line that was split last, up to its first zero unit. -/
  lastLine : Option (List UInt16)

namespace Kernel

/-- The error code for an answer that is kept from the caller. -/
def refused : Int32 := 5

/-- A system without processes that nobody has asked anything yet. It keeps its name and its
directories to itself. -/
def idle (ownPid : Int32) : Kernel where
  tableRefusal := none
  rowRefusal := none
  rows := []
  processes := []
  splitting := .whole
  computerName := .error refused
  tempPath := .error refused
  ownPid
  bufferAddress := 0x100000000
  openHandles := 0
  handlesOpened := 0
  tablesTaken := 0
  vectors := 0
  lastLine := none

/-- The error code for a process that does not exist. -/
def noSuchProcess : Int32 := 87

/-- The error code for a table without any further row. -/
def noMoreRows : Int32 := 18

/-- The status for a question that the caller may not ask. -/
def accessDenied : Int32 := -1073741790

/-- The system with other answers for some processes, and then without the processes in `gone`. -/
def replaceProcesses (kernel : Kernel) (changes : List (Int32 × Except Int32 Handle))
    (gone : List Int32) : Kernel :=
  { kernel with
    processes := (changes ++ kernel.processes).filter fun (pid, _) => !gone.contains pid }

/-- The system after a handle has been opened. -/
def handOut (kernel : Kernel) : Kernel :=
  { kernel with
    openHandles := kernel.openHandles + 1
    handlesOpened := kernel.handlesOpened + 1 }

/-- The system after a handle has been closed. -/
def closeHandle (kernel : Kernel) : Kernel :=
  { kernel with openHandles := kernel.openHandles - 1 }

/-- Opens a process. -/
def openProcess (pid : Int32) (kernel : Kernel) : Except Int32 Handle × Kernel :=
  match kernel.processes.lookup pid with
  | some (.ok handle) => (.ok handle, kernel.handOut)
  | some (.error code) => (.error code, kernel)
  | none => (.error noSuchProcess, kernel)

/-- Takes a copy of the process table. -/
def takeTable (kernel : Kernel) : Except Int32 Unit × Kernel :=
  match kernel.tableRefusal with
  | some code => (.error code, kernel)
  | none => (.ok (), { kernel.handOut with tablesTaken := kernel.tablesTaken + 1 })

/-- The records in a copy of the process table. There is at least one. -/
def tableRecords (kernel : Kernel) : Except Int32 (List Bytes) :=
  match kernel.rowRefusal with
  | some code => .error code
  | none => if kernel.rows.isEmpty then .error noMoreRows else .ok kernel.rows

/-- Splits a command line that ends at its first zero unit. The caller has to free the vector. -/
def splitLine (line : List UInt16) (kernel : Kernel) : Option (List (List UInt16)) × Kernel :=
  let line := line.takeWhile (· != 0)
  let kernel := { kernel with lastLine := some line }
  match kernel.splitting with
  | .whole => (some [line], { kernel with vectors := kernel.vectors + 1 })
  | .into arguments => (some arguments, { kernel with vectors := kernel.vectors + 1 })
  | .refused => (none, kernel)

/-- The system after an argument vector has been freed. -/
def freeVector (kernel : Kernel) : Kernel :=
  { kernel with vectors := kernel.vectors - 1 }

end Kernel

namespace LineAnswer

/-- The answer as it stands in a buffer at `address`: the header and what follows it. -/
def bytes (answer : LineAnswer) (address : UInt64) : Bytes :=
  let layout := Record.stringHeader
  let text := (address.toNat + answer.offset).toNat
  let header := layout.write "Length" (.ofNat 2 answer.length.toNat) <|
    layout.write "MaximumLength" (.ofNat 2 answer.length.toNat) <|
    layout.write "Buffer" (.ofNat 8 text) <|
    List.replicate layout.size 0
  header ++ answer.body

/-- A call with a buffer of `size` bytes at `address`: its status, and what it writes and reports. A
call without a buffer reports the size that one would need. -/
def fill (answer : LineAnswer) (address : UInt64) (size : UInt32) :
    Int32 × Sizing.Filled UInt8 :=
  if size = 0 then (answer.sizeStatus, { written := [], reported := answer.needed.toNat })
  else if answer.status = 0 then
    let written := (answer.bytes address).take size.toNat
    (0, { written, reported := (answer.reported.map (·.toNat)).getD written.length })
  else (answer.status, { written := [], reported := 0 })

end LineAnswer

/-- Opens something, works with its handle and closes the handle, in whatever way the work ends. -/
def holding {α β : Type} (opening : Attempt Kernel α) (work : α → Attempt Kernel β) :
    Attempt Kernel β := do
  let held ← opening
  (work held).ensuring Kernel.closeHandle

/-- Opens a process. -/
def openProcess (pid : Int32) : Attempt Kernel Handle :=
  Attempt.call fun kernel =>
    let (answer, kernel) := kernel.openProcess pid
    (answer.mapError (.native "OpenProcess" ·), kernel)

/-- Takes a copy of the process table. -/
def takeTable : Attempt Kernel Unit :=
  Attempt.call fun kernel =>
    let (answer, kernel) := kernel.takeTable
    (answer.mapError (.native "CreateToolhelp32Snapshot" ·), kernel)

end ProcessCensus.Windows
