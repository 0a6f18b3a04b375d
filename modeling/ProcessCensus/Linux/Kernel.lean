import ProcessCensus.Accounts
import ProcessCensus.Linux.Tree
import ProcessCensus.Memo.Basic
import ProcessCensus.Text.Blank
import ProcessCensus.Text.Numeral

/-!
A Linux system: its file tree, its databases of users and groups, the time of its start, which is read
once, and the units in which it counts time and memory.
-/

namespace ProcessCensus.Linux

/-- A Linux system. -/
structure Kernel where
  tree : Tree
  users : Accounts.Database
  groups : Accounts.Database
  /-- Seconds of the epoch at which the system started. -/
  bootTime : Memo UInt64
  /-- Clock ticks in a second. -/
  clockTicks : UInt64
  /-- Bytes in a page of memory. -/
  pageSize : UInt64
  ownPid : Int32

/-- The seconds in the first line of `/proc/stat` that begins with `btime`. -/
def bootSeconds? (stat : List Char) : Option UInt64 := do
  let label := "btime".toList
  let line ← (Text.lines stat).find? label.isPrefixOf
  let value ← Text.unsigned? UInt64.size (Text.trim (line.drop label.length))
  return UInt64.ofNat value

/-- Reads when the system started. If it does not tell, the epoch stands in. -/
def readBootTime : Run Kernel UInt64 := do
  match (← Run.kernel).tree.readText (.ofText "/proc/stat".toList) with
  | .ok stat =>
    match bootSeconds? stat with
    | some seconds => return seconds
    | none => missing
  | .error _ => missing
where
  missing : Run Kernel UInt64 := do
    Run.note .bootTimeUnknown
    return 0

/-- When the system started. It is read at the first use and never again. -/
def bootTime : Run Kernel UInt64 := do
  let (seconds, memo) ← (← Run.kernel).bootTime.obtain 0 readBootTime
  Run.call fun kernel => ((), { kernel with bootTime := memo })
  return seconds

end ProcessCensus.Linux
