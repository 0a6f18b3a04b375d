import ProcessCensus.Darwin.Parameter
import ProcessCensus.Darwin.Resolver
import ProcessCensus.Source

/-!
The source that reads processes from a Darwin kernel.
-/

namespace ProcessCensus.Darwin

/-- Bytes in a pid. -/
def pidSize : Nat := 4

/-- The first `count` pids in a buffer. -/
def pidsIn (buffer : Bytes) : Nat → List Int32
  | 0 => []
  | count + 1 =>
    Int32.ofNat (Bytes.toNat (buffer.take pidSize)) :: pidsIn (buffer.drop pidSize) count

/-- A count of bytes that has to be positive, as a count of pids. -/
def pidCount (bytes : Int) : Except Failure Nat :=
  if bytes ≤ 0 then .error (.native "proc_listpids" Kernel.noError)
  else .ok (bytes.toNat / pidSize)

/-- The pids of all processes. -/
def listPids : Attempt Kernel (List Int32) :=
  Sizing.Buffer.toList <$> Sizing.probeThenFetch "proc_listpids" pidSize 0
    (do Attempt.ofExcept (pidCount (← askSize "proc_listpids" .pids)))
    (fun capacity => do
      let written ← perform "proc_listpids" .pids (capacity * pidSize)
      let reported ← Attempt.ofExcept (pidCount written.count)
      let count := (written.content.length + pidSize - 1) / pidSize
      return { written := pidsIn written.content count, reported })

/-- The attributes of a process. -/
def attributes (pid : Int32) (release : Release) : Run Kernel (Option Attributes) :=
  (resolve pid release).orNote (.processUnreadable pid)

/-- The largest size of the arguments of a process. It is read at the first use and never again. -/
def argumentLimit : Run Kernel Int32 := do
  let (limit, memo) ← (← Run.kernel).argumentLimit.obtain 0 (intParameter "kern.argmax" 0)
  Run.call fun kernel => ((), { kernel with argumentLimit := memo })
  return limit

/-- The address of the parameter that holds the arguments of a process. -/
def argumentsAddress (pid : Int32) : List Int32 := [1, 49, pid]

/-- The blob in an answer. Of the zero bytes after what was written only so many can matter as there
may be arguments, and those that end the last string or belong to the number of arguments. -/
def blobIn (answer : Sizing.Buffer UInt8) : Bytes :=
  answer.slice 0 (answer.written.length + Invocation.maxArguments.toNatClampNeg + 8)

/-- The arguments and the environment of a process. -/
def invocation (pid : Int32) : Run Kernel Invocation := do
  let limit ← argumentLimit
  if limit ≤ 0 then return .empty
  match ← (addressedParameter (argumentsAddress pid) limit.toNatClampNeg).outcome with
  | .ok answer => Invocation.readBlob pid (blobIn answer)
  | .error failure =>
    Run.note (.processUnreadable pid failure)
    return .empty

/-- The source on Darwin. -/
def source : Source Kernel where
  platform := .darwin
  list := listPids
  currentPid := do return (← Run.kernel).ownPid
  attributes
  batch := Source.readEach attributes
  invocation

end ProcessCensus.Darwin
