import ProcessCensus.Linux.Parameter
import ProcessCensus.Linux.Resolver
import ProcessCensus.Source

/-!
The source that reads processes from the file tree of a Linux system.
-/

namespace ProcessCensus.Linux

/-- The pid that a name below `/proc` stands for. -/
def pidOfName? (name : Bytes) : Option Int32 :=
  ((Text.Utf8.decode? name).bind (Text.signed? Int32.size)).map Int32.ofInt

/-- The pids among the names below `/proc`. Without any it is not what it should be. -/
def listPids : Attempt Kernel (List Int32) := do
  let kernel ← Attempt.lift Run.kernel
  let pids := (kernel.tree.namesIn [Tree.procName]).filterMap pidOfName?
  if pids.isEmpty then throw (.unsupported "/proc without process directories")
  return pids

/-- The attributes of a process. They do not depend on the release. -/
def attributes (pid : Int32) (_release : Release) : Run Kernel (Option Attributes) := do
  let readings := (← Run.kernel).tree.readings pid
  (resolve pid readings).orNote (.processUnreadable pid)

/-- The arguments and the environment of a process; a file that cannot be read counts as empty. -/
def invocation (pid : Int32) : Run Kernel Invocation := do
  let tree := (← Run.kernel).tree
  let strings (file : String) : List String :=
    Invocation.nulSeparated ((tree.read (.ofProcess pid file)).toOption.getD [])
  return { arguments := strings "cmdline", environment := .ofLines (strings "environ") }

/-- The source on Linux. -/
def source : Source Kernel where
  platform := .linux
  list := listPids
  currentPid := do return (← Run.kernel).ownPid
  attributes
  batch := Source.readEach attributes
  invocation

end ProcessCensus.Linux
