import ProcessCensus.Accounts
import ProcessCensus.Memo.Basic
import ProcessCensus.Script
import ProcessCensus.Sizing.Basic

/-!
A Darwin kernel whose answers to every call are laid down in advance.
-/

namespace ProcessCensus.Darwin

/-- The calls that the kernel answers. -/
inductive Call where
  /-- The pids of all processes. -/
  | pids
  /-- A record about a process, of one of several kinds. -/
  | processInfo (pid : Int32) (flavor : Nat)
  /-- The path of the executable of a process. -/
  | processPath (pid : Int32)
  /-- The resources that a process has used. -/
  | resourceUsage (pid : Int32) (flavor : Nat)
  /-- A kernel parameter. One with a numeric address has the numbers, joined by dots, for its
  name. -/
  | parameter (name : String)
deriving DecidableEq

/-- An answer to a call that fills a buffer: the data to copy into it and, unless it is their length,
the count to report; or an error code. -/
inductive Reply where
  | data (content : Bytes) (count : Option Int)
  | failing (code : Int32)
deriving DecidableEq

/-- The ratio that turns the units of the kernel's clock into nanoseconds. -/
structure Timebase where
  numerator : UInt32
  denominator : UInt32
deriving DecidableEq

/-- A Darwin system. -/
structure Kernel where
  replies : List (Call × Script Reply)
  /-- Answers to calls without a buffer, which ask for the size: a size or an error code. -/
  sizes : List (Call × Script (Except Int32 Int))
  users : Accounts.Database
  groups : Accounts.Database
  /-- What the kernel tells of its clock, with the return code of the call. -/
  clock : Timebase × Int32
  /-- The timebase, read once. -/
  timebase : Memo Timebase
  /-- The largest size of the arguments of a process, read once. -/
  argumentLimit : Memo Int32
  ownPid : Int32

/-- What a call did to a buffer: the bytes it wrote from the start on, and the count it reports. -/
structure Written where
  content : Bytes
  count : Int
deriving DecidableEq

namespace Kernel

/-- The error code of a call for which nothing was laid down. -/
def unscripted : Call → Int32
  | .parameter _ => 2
  | _ => 3

/-- The error code that is found after a call that did not fail. -/
def noError : Int32 := 0

/-- What was laid down for a call. -/
def script? (kernel : Kernel) (call : Call) : Option (Script Reply) :=
  kernel.replies.lookup call

/-- The scripts after a call has used up an answer of its own. -/
def useUp {α : Type} (call : Call) (scripts : List (Call × Script α)) : List (Call × Script α) :=
  scripts.map fun (key, script) => if key = call then (key, script.advance) else (key, script)

/-- A call with a buffer of `capacity` bytes: what it wrote and reports, or an error code. -/
def perform (call : Call) (capacity : Nat) (kernel : Kernel) : Except Int32 Written × Kernel :=
  let rest := { kernel with replies := useUp call kernel.replies }
  match (kernel.script? call).bind Script.peek? with
  | some (.data content count) =>
    let written := content.take capacity
    (.ok { content := written, count := count.getD written.length }, rest)
  | some (.failing code) => (.error code, rest)
  | none => (.error (unscripted call), kernel)

/-- A call without a buffer: the size it tells, or an error code. If none was laid down, it is the
size of the answer that a buffer would get. -/
def size (call : Call) (kernel : Kernel) : Except Int32 Int × Kernel :=
  match (kernel.sizes.lookup call).bind Script.peek? with
  | some answer => (answer, { kernel with sizes := useUp call kernel.sizes })
  | none =>
    match (kernel.script? call).bind Script.peek? with
    | some (.data content _) => (.ok content.length, kernel)
    | some (.failing code) => (.error code, kernel)
    | none => (.error 2, kernel)

/-- The kernel with other answers to some calls. -/
def rescript {α : Type} (scripts changes : List (Call × Script α)) : List (Call × Script α) :=
  changes ++ scripts.filter fun (call, _) => (changes.lookup call).isNone

end Kernel

/-- A buffer of `size` zero bytes after a call has written to it. -/
def Written.buffer (written : Written) (size : Nat) : Sizing.Buffer UInt8 :=
  .ofWritten 0 written.content size

/-- A call with a buffer. Its error code becomes a failure that names the call. -/
def perform (name : String) (call : Call) (capacity : Nat) : Attempt Kernel Written :=
  Attempt.call fun kernel =>
    let (answer, kernel) := kernel.perform call capacity
    (answer.mapError (.native name ·), kernel)

/-- A call without a buffer, which asks for a size. -/
def askSize (name : String) (call : Call) : Attempt Kernel Int :=
  Attempt.call fun kernel =>
    let (answer, kernel) := kernel.size call
    (answer.mapError (.native name ·), kernel)

end ProcessCensus.Darwin
