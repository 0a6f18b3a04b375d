import ProcessCensus.Windows.Kernel
import ProcessCensus.Windows.Row

/-!
The process table of Windows, read row by row from a copy that the system takes.
-/

namespace ProcessCensus.Windows

/-- Rows by their pids, in ascending order. -/
abbrev Table := List (Int32 × Row)

namespace Table

/-- The table with a row put in its place. A row that was there gives way. -/
def insert (pid : Int32) (row : Row) : Table → Table
  | [] => [(pid, row)]
  | (first, held) :: rest =>
    if pid < first then (pid, row) :: (first, held) :: rest
    else if pid = first then (pid, row) :: rest
    else (first, held) :: insert pid row rest

/-- The table of some rows. Of several rows for one pid, the last one counts. -/
def ofRows (rows : List (Int32 × Row)) : Table :=
  rows.foldl (fun table (pid, row) => table.insert pid row) []

/-- The pids in the table. -/
def pids (table : Table) : List Int32 :=
  table.map (·.1)

end Table

/-- The rows in a copy of the process table. -/
def readRows : Attempt Kernel (List (Int32 × Row)) := do
  let kernel ← Attempt.lift Run.kernel
  let records ← Attempt.ofExcept (kernel.tableRecords.mapError (.native "Process32FirstW" ·))
  records.mapM fun record => Attempt.lift (Run.read (Row.ofRecord record))

/-- The process table at the moment. -/
def readTable : Attempt Kernel Table :=
  holding takeTable fun _ => Table.ofRows <$> readRows

end ProcessCensus.Windows
