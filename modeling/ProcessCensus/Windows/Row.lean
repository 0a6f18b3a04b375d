import ProcessCensus.Record.Read
import ProcessCensus.Record.Windows
import ProcessCensus.Record.Write

/-!
Rows of the process table of Windows. The system writes each of them as one record.
-/

namespace ProcessCensus.Windows

/-- A row as the system keeps it. -/
structure Entry where
  pid : Int32
  parent : Int32
  threads : UInt32
  priority : Int32
  /-- The units in the name of the executable file. -/
  file : List UInt16
  /-- The byte that stands in all places of the record that nothing is written to. -/
  filler : UInt8
deriving DecidableEq

/-- The record for a row. A file name that is shorter than its field ends with a zero unit. -/
def Entry.record (entry : Entry) : Bytes :=
  let layout := Record.processRow
  let words := layout.write "th32ProcessID" (.ofNat 4 entry.pid.toUInt32.toNat) <|
    layout.write "th32ParentProcessID" (.ofNat 4 entry.parent.toUInt32.toNat) <|
    layout.write "cntThreads" (.ofNat 4 entry.threads.toNat) <|
    layout.write "pcPriClassBase" (.ofNat 4 entry.priority.toUInt32.toNat) <|
    List.replicate layout.size entry.filler
  layout.write "szExeFile" (.ofUnits (entry.file ++ [0])) words

/-- What a row tells about its process. -/
structure Row where
  parent : Int32
  threads : UInt32
  priority : Int32
  /-- The name of the executable file. -/
  file : String
deriving DecidableEq

/-- The pid of a row and what the row tells, read from its record. -/
def Row.ofRecord (record : Bytes) : Except Record.Fault (Int32 × Row) := do
  let layout := Record.processRow
  let pid ← layout.readUInt32 record "th32ProcessID"
  let parent ← layout.readUInt32 record "th32ParentProcessID"
  let threads ← layout.readUInt32 record "cntThreads"
  let priority ← layout.readInt32 record "pcPriClassBase"
  let file ← layout.readWideString record "szExeFile"
  return (pid.toInt32, { parent := parent.toInt32, threads, priority, file })

end ProcessCensus.Windows
