import ProcessCensus.Invocation
import ProcessCensus.Record.Read
import ProcessCensus.Text.Utf16
import ProcessCensus.Windows.Kernel

/-!
Command lines on Windows. The system answers with a header and a text; the header has the address of
the text, which has to lie within the answer. The system itself splits a command line into arguments.
-/

namespace ProcessCensus.Windows

/-- The status for a buffer that is too small. -/
def lengthMismatch : Int32 := -1073741820

/-- The call that asks for a command line. -/
def lineCall : String := "NtQueryInformationProcess"

/-- A call with a buffer of `size` bytes at `address`: its status, and what it writes and reports. -/
def Handle.queryLine (handle : Handle) (address : UInt64) (size : UInt32) :
    Int32 × Sizing.Filled UInt8 :=
  match handle.commandLine with
  | some answer => answer.fill address size
  | none => (Kernel.accessDenied, { written := [], reported := 0 })

/-- The size of the answer. The call that asks for it has no buffer, so it may complain about that. -/
def Handle.lineSize (handle : Handle) (address : UInt64) : Except Failure Nat :=
  let (status, filled) := handle.queryLine address 0
  if status = lengthMismatch ∨ status = 0 then .ok filled.reported
  else .error (.native lineCall status)

/-- The answer in a buffer of `capacity` bytes at `address`. The call takes the capacity as a word of
32 bits, so a larger buffer is filled in part or not at all. -/
def Handle.fillLine (handle : Handle) (address : UInt64) (capacity : Nat) :
    Except Failure (Sizing.Filled UInt8) :=
  let (status, filled) := handle.queryLine address (UInt32.ofNat capacity)
  if status = 0 then .ok filled else .error (.native lineCall status)

/-- The whole answer in a buffer at `address`. -/
def Handle.line (handle : Handle) (address : UInt64) : Attempt Kernel (Sizing.Buffer UInt8) :=
  Sizing.probeThenFetch lineCall 1 0 (.ofExcept (handle.lineSize address)) fun capacity =>
    .ofExcept (handle.fillLine address capacity)

/-- The header of a counted string. -/
structure StringHeader where
  /-- Bytes in the text. -/
  length : UInt16
  /-- The address of the text. -/
  address : UInt64
deriving DecidableEq

/-- Reads a header from its record. -/
def StringHeader.ofRecord (record : Bytes) : Except Record.Fault StringHeader := do
  let layout := Record.stringHeader
  let length ← layout.readUInt16 record "Length"
  let address ← layout.readAddress record "Buffer"
  return { length, address }

/-- The units of the text to which a header points, in an answer that lies at `base`. A last odd byte
is left out. -/
def StringHeader.unitsIn (header : StringHeader) (base : UInt64) (answer : Sizing.Buffer UInt8) :
    Except Failure (List UInt16) :=
  let start := header.address.toNat - base.toNat
  let length := header.length.toNat
  if header.address < base ∨ answer.length < start + length then
    .error (.malformed "UNICODE_STRING" "buffer outside the answer")
  else .ok (Bytes.units (answer.slice start length))

/-- The units of the text in an answer that lies at `base`. -/
def lineUnits (base : UInt64) (answer : Sizing.Buffer UInt8) : Attempt Kernel (List UInt16) := do
  if answer.length < Record.stringHeader.size then
    throw (.malformed "UNICODE_STRING" "short buffer")
  let header ← Attempt.lift (Run.read (StringHeader.ofRecord (answer.slice 0 Record.stringHeader.size)))
  Attempt.ofExcept (header.unitsIn base answer)

/-- The units of the command line of a process. -/
def commandLineUnits (pid : Int32) : Attempt Kernel (List UInt16) :=
  holding (openProcess pid) fun handle => do
    let base := (← Attempt.lift Run.kernel).bufferAddress
    lineUnits base (← handle.line base)

/-- The arguments in a command line. An empty line has none; it is not handed to the system, which
would put the caller's own path in its place. -/
def splitLine (line : List UInt16) : Run Kernel (List String) := do
  if line.isEmpty then return []
  match ← Run.call (Kernel.splitLine line) with
  | some vector =>
    Run.call fun kernel => ((), kernel.freeVector)
    return vector.map Text.wideString
  | none => return []

/-- The arguments of a process. The system does not tell its environment. A pseudo process has no
command line, so only real processes are worth a notice. -/
def invocation (pid : Int32) : Run Kernel Invocation := do
  match ← (commandLineUnits pid).outcome with
  | .ok line => return { Invocation.empty with arguments := ← splitLine line }
  | .error failure =>
    if 0 < pid then Run.note (.processUnreadable pid failure)
    return .empty

end ProcessCensus.Windows
