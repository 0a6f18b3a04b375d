import ProcessCensus.Source

/-!
A system whose processes are rows of a table in memory. It keeps account of what it was asked.
-/

namespace ProcessCensus

/-- A process of the table. -/
structure TableRow where
  pid : Int32
  attributes : Attributes
  invocation : Invocation
  /-- Reading the attributes of this process breaks off. -/
  raises : Bool

/-- How the table reads several processes. -/
inductive TableBatch where
  /-- One after the other, and accounted for. -/
  | recorded
  /-- As a source does that has no way of its own. -/
  | plain
  /-- Like `recorded`, but the last answer is missing. -/
  | short
deriving DecidableEq

/-- The rows, and an account of the questions, latest first. -/
structure ProcessTable where
  rows : List TableRow
  /-- The pids of the rows there are or have been, in the order of their appearance. -/
  order : List Int32
  /-- What the table answers when it is asked for its pids, if not `order`. -/
  listing : Option (Except Failure (List Int32))
  current : Int32
  attributeReads : List Int32
  invocationReads : List Int32
  batches : List (List Int32)
  releases : List Release

namespace ProcessTable

/-- The row of a process. -/
def row? (table : ProcessTable) (pid : Int32) : Option TableRow :=
  table.rows.find? (·.pid == pid)

/-- The table without a row for the process. It stays in the order. -/
def remove (table : ProcessTable) (pid : Int32) : ProcessTable :=
  { table with rows := table.rows.filter (·.pid != pid) }

/-- The table with a row added, or put in the place of another. -/
def put (table : ProcessTable) (row : TableRow) : ProcessTable :=
  { table with
    rows := row :: table.rows.filter (·.pid != row.pid)
    order := if table.order.contains row.pid then table.order else table.order ++ [row.pid] }

/-- The table with the given rows, asked nothing yet. Of rows with one pid the last counts. -/
def ofRows (rows : List TableRow) (current : Int32) : ProcessTable :=
  rows.foldl put
    { rows := [], order := [], listing := none, current, attributeReads := [],
      invocationReads := [], batches := [], releases := [] }

/-- The pids that the table lists. -/
def list : Attempt ProcessTable (List Int32) :=
  Attempt.call fun table => (table.listing.getD (.ok table.order), table)

/-- The attributes of a process. -/
def attributes (pid : Int32) (release : Release) : Run ProcessTable (Option Attributes) := do
  let row ← Run.call fun table =>
    (table.row? pid, { table with
      attributeReads := pid :: table.attributeReads
      releases := release :: table.releases })
  match row with
  | some row =>
    if row.raises then throw (.raised s!"scripted panic for {pid}")
    return some row.attributes
  | none => return none

/-- The attributes of several processes, with the batch accounted for. -/
def recordedBatch (pids : List Int32) (release : Release) :
    Run ProcessTable (List (Option Attributes)) := do
  Run.call fun table => ((), { table with batches := pids :: table.batches })
  Source.readEach attributes pids release

/-- The attributes of several processes. -/
def batch (kind : TableBatch) (pids : List Int32) (release : Release) :
    Run ProcessTable (List (Option Attributes)) :=
  match kind with
  | .recorded => recordedBatch pids release
  | .plain => Source.readEach attributes pids release
  | .short => List.dropLast <$> recordedBatch pids release

/-- The arguments and the environment of a process. -/
def invocation (pid : Int32) : Run ProcessTable Invocation := do
  let row ← Run.call fun table =>
    (table.row? pid, { table with invocationReads := pid :: table.invocationReads })
  return (row.map (·.invocation)).getD .empty

/-- The table as a source. -/
def source (platform : Platform) (kind : TableBatch) : Source ProcessTable where
  platform
  list
  currentPid := do return (← Run.kernel).current
  attributes
  batch := batch kind
  invocation

/-- How often each of the pids was asked for, in ascending order of the pids. -/
def tally (pids : List Int32) : List (Int32 × Nat) :=
  (pids.eraseDups.mergeSort fun a b => a ≤ b).map fun pid => (pid, pids.count pid)

end ProcessTable

end ProcessCensus
