import ProcessCensus.Proofs.Record.Read
import ProcessCensus.Proofs.Run
import ProcessCensus.Proofs.Windows.Table
import ProcessCensus.Windows.Source

/-!
What Windows answers about a process, without the calls that ask for it. As long as the system stands,
the process table is the same in every copy, opening a process comes to the same, and so do the
attributes of a row: `Row.told` says what they are, and the source yields just that.
-/

namespace ProcessCensus.Windows

open Record

/-- Every whole record has a row in it. -/
theorem Row.ofRecord_eq_ok {record : Bytes} (hRecord : processRow.size ≤ record.length) :
    ∃ entry, Row.ofRecord record = .ok entry := by
  have hName : processRow.Holds "szExeFile" 520 := by decide
  obtain ⟨file, hFile⟩ := hName.bytes_eq_ok hRecord
  rw [ofRecord]
  iterate 4 refine exists_bind_ok (Layout.number_eq_ok hRecord (by decide)) fun _ => ?_
  rw [Layout.readWideString, hFile]
  exact ⟨_, rfl⟩

theorem MemoryCounters.ofRecord_eq_ok {record : Bytes}
    (hRecord : memoryCounters.size ≤ record.length) :
    ∃ counters, MemoryCounters.ofRecord record = .ok counters := by
  rw [ofRecord]
  iterate 3 refine exists_bind_ok (Layout.number_eq_ok hRecord (by decide)) fun _ => ?_
  exact ⟨_, rfl⟩

/-- The kernel answers all questions about processes as `base` does. What callers hold, and what else
they may ask, is left open. -/
structure Kernel.AnswersAs (base : Kernel) (host : Host Kernel) : Prop where
  tableRefusal : host.kernel.tableRefusal = base.tableRefusal
  rowRefusal : host.kernel.rowRefusal = base.rowRefusal
  rows : host.kernel.rows = base.rows
  processes : host.kernel.processes = base.processes

theorem Kernel.AnswersAs.refl (host : Host Kernel) : host.kernel.AnswersAs host :=
  ⟨rfl, rfl, rfl, rfl⟩

/-- What opening a process comes to. -/
def Kernel.opening (kernel : Kernel) (pid : Int32) : Except Int32 Handle :=
  (kernel.processes.lookup pid).getD (.error noSuchProcess)

/-- The rows in a copy of the process table, if the system does not refuse to tell them. -/
def Kernel.copiedRows (kernel : Kernel) : Except Abort (Except Failure (List (Int32 × Row))) :=
  match kernel.tableRecords with
  | .error code => .ok (.error (.native "Process32FirstW" code))
  | .ok records => match records.mapM Row.ofRecord with
    | .ok rows => .ok (.ok rows)
    | .error fault => .error (.fault fault)

/-- The process table, if the system does not refuse to take a copy and to tell its rows. -/
def Kernel.table (kernel : Kernel) : Except Abort (Except Failure Table) :=
  match kernel.tableRefusal with
  | some code => .ok (.error (.native "CreateToolhelp32Snapshot" code))
  | none => (Table.ofRows <$> ·) <$> kernel.copiedRows

section Steady

variable {base : Kernel}

theorem Kernel.AnswersAs.closed {host : Host Kernel} (hHost : base.AnswersAs host) :
    base.AnswersAs { host with kernel := host.kernel.closeHandle } :=
  ⟨hHost.tableRefusal, hHost.rowRefusal, hHost.rows, hHost.processes⟩

theorem note_yields (notice : Notice) :
    Run.Yields base.AnswersAs (Run.note notice) (.ok ()) :=
  fun _ hHost => ⟨rfl, hHost.tableRefusal, hHost.rowRefusal, hHost.rows, hHost.processes⟩

theorem readRows_yields (base : Kernel) :
    Run.Yields base.AnswersAs readRows.outcome base.copiedRows := by
  intro host hHost
  have hRecords : host.kernel.tableRecords = base.tableRecords := by
    rw [Kernel.tableRecords, Kernel.tableRecords, hHost.rowRefusal, hHost.rows]
  rw [readRows, Attempt.on_bind_of_eq (Attempt.on_lift_of_eq (Run.on_kernel host)), hRecords,
    Kernel.copiedRows]
  cases base.tableRecords with
  | error code => exact ⟨rfl, hHost⟩
  | ok records =>
      simp only [Except.mapError, Attempt.ofExcept, pure_bind, Attempt.mapM_read]
      cases records.mapM Row.ofRecord with
      | ok rows => exact ⟨rfl, hHost⟩
      | error fault => exact ⟨rfl, hHost⟩

theorem readTable_yields (base : Kernel) :
    Run.Yields base.AnswersAs readTable.outcome base.table := by
  intro host hHost
  have hTake : takeTable.outcome.on host =
      (.ok ((host.kernel.takeTable.1).mapError (.native "CreateToolhelp32Snapshot" ·)),
        { host with kernel := host.kernel.takeTable.2 }) := rfl
  rw [Kernel.takeTable, hHost.tableRefusal] at hTake
  rw [readTable, holding, Kernel.table]
  cases hRefusal : base.tableRefusal with
  | some code =>
      rw [hRefusal] at hTake
      rw [Attempt.on_bind_of_failure hTake]
      exact ⟨rfl, hHost⟩
  | none =>
      rw [hRefusal] at hTake
      rw [Attempt.on_bind_of_eq hTake]
      have hCopied := Attempt.yields_map Table.ofRows (readRows_yields base)
      exact hCopied.ensuring (fun _ hAfter => hAfter.closed) _
        ⟨hHost.tableRefusal, hHost.rowRefusal, hHost.rows, hHost.processes⟩

theorem openProcess_yields (base : Kernel) (pid : Int32) :
    Run.Yields base.AnswersAs (openProcess pid).outcome
      (.ok ((base.opening pid).mapError (.native "OpenProcess" ·))) := by
  intro host hHost
  rw [openProcess, Attempt.outcome_call, Run.on_call, Kernel.openProcess, Kernel.opening,
    hHost.processes]
  cases base.processes.lookup pid with
  | none => exact ⟨rfl, hHost⟩
  | some answer =>
      cases answer with
      | error code => exact ⟨rfl, hHost⟩
      | ok handle => exact ⟨rfl, hHost.tableRefusal, hHost.rowRefusal, hHost.rows, hHost.processes⟩

theorem orNoted_yields {α : Type} {attempt : Attempt Kernel α} {result : Except Failure α}
    (hAttempt : Run.Yields base.AnswersAs attempt.outcome (.ok result)) (fallback : α) :
    Run.Yields base.AnswersAs (orNoted attempt fallback)
      (.ok (result.toOption.getD fallback)) := by
  refine hAttempt.bind_ok ?_
  cases result with
  | ok value => exact .pure value
  | error failure => exact (note_yields _).bind_ok (.pure fallback)

/-- The memory counters, if the system tells them. -/
def Handle.counters? (handle : Handle) : Option MemoryCounters :=
  if handle.memory.1 = 0 then
    (MemoryCounters.ofRecord
      (Sizing.Buffer.ofWritten 0 handle.memory.2 memoryCounters.size).toList).toOption
  else none

/-- A record of memory counters is as long as its layout, whatever the system writes of it. -/
theorem readMemory_eq (handle : Handle) :
    ∃ result, handle.readMemory = .ofExcept result ∧ result.toOption = handle.counters? := by
  have hLength := Sizing.Buffer.length_toList
    (.ofWritten 0 handle.memory.2 memoryCounters.size)
  obtain ⟨counters, hCounters⟩ := MemoryCounters.ofRecord_eq_ok (Nat.le_of_eq hLength.symm)
  rw [Handle.counters?, hCounters]
  by_cases hStatus : handle.memory.1 = 0
  case pos =>
    refine ⟨.ok counters, ?_, by rw [if_pos hStatus]; rfl⟩
    simp only [Handle.readMemory, hStatus, hCounters]
    rfl
  case neg =>
    refine ⟨.error (.native "NtQueryInformationProcess" handle.memory.1), ?_,
      by rw [if_neg hStatus]; rfl⟩
    simp only [Handle.readMemory]
    rw [if_pos hStatus]
    rfl

/-- The attributes of a process with this row that can be opened. -/
def Handle.told (handle : Handle) (row : Row) : Attributes :=
  settleName (handle.enter (handle.readPath.toOption.getD "") (handle.counters?.getD .none)
    row.attributes)

theorem reveal_yields (handle : Handle) (row : Row) :
    Run.Yields base.AnswersAs (handle.reveal row.attributes)
      (.ok (handle.enter (handle.readPath.toOption.getD "") (handle.counters?.getD .none)
        row.attributes)) := by
  obtain ⟨memory, hMemory, hCounters⟩ := readMemory_eq handle
  rw [Handle.reveal, hMemory, ← hCounters]
  refine (orNoted_yields (Attempt.yields_ofExcept _) _).bind_ok ?_
  exact (orNoted_yields (Attempt.yields_ofExcept _) _).bind_ok (.pure _)

/-- The attributes of a process with this row, after an attempt to open it. -/
def Row.told (row : Row) (opening : Except Int32 Handle) : Option Attributes :=
  if row.threads = 0 then none
  else match opening with
    | .ok handle => some (handle.told row)
    | .error code => if code = 87 ∨ code = 2 then none else some (settleName row.attributes)

/-- Name and path are all that is settled. -/
theorem settleName_eq (a : Attributes) :
    settleName a = { a with name := (settleName a).name, path := (settleName a).path } := by
  simp only [settleName]
  split
  · rfl
  · split <;> rfl

/-- The attributes are of a live process, and those that no handle reveals are from the row. -/
structure Row.Shown (row : Row) (a : Attributes) : Prop where
  threads_ne : row.threads ≠ 0
  parent : a.parent = row.parent
  threads : a.threads = row.threads
  priority : a.priority = row.priority
  state : a.state = .running
  upTime : a.upTime = 0

theorem Row.shown_of_told {row : Row} {opening : Except Int32 Handle} {a : Attributes}
    (hTold : row.told opening = some a) : row.Shown a := by
  rw [Row.told.eq_def] at hTold
  split at hTold
  case isTrue => cases hTold
  case isFalse hThreads =>
    have hShown : ∀ b : Attributes, row.Shown b → row.Shown (settleName b) := by
      intro b hb
      rw [settleName_eq]
      exact ⟨hThreads, hb.parent, hb.threads, hb.priority, hb.state, hb.upTime⟩
    split at hTold
    case h_1 handle =>
      cases hTold
      exact hShown _ ⟨hThreads, rfl, rfl, rfl, rfl, rfl⟩
    case h_2 code =>
      split at hTold
      case isTrue => cases hTold
      case isFalse =>
        cases hTold
        exact hShown _ ⟨hThreads, rfl, rfl, rfl, rfl, rfl⟩

theorem checkThreads_of_zero {row : Row} (hThreads : row.threads = 0) :
    resolveRow.checkThreads row = throw (.malformed "PROCESSENTRY32W" "no threads") :=
  if_pos hThreads

theorem checkThreads_of_ne {row : Row} (hThreads : row.threads ≠ 0) :
    resolveRow.checkThreads row = pure () :=
  if_neg hThreads

theorem isGone_native (call : String) (code : Int32) :
    (Failure.native call code).isGone .windows = true ↔ code = 87 ∨ code = 2 := by
  simp [Failure.isGone, Failure.code?, Platform.goneCodes]

/-- What comes of a row is told by the row and the attempt to open its process. -/
theorem exists_resolveRow_yields (base : Kernel) (pid : Int32) (row : Row) :
    ∃ result, Run.Yields base.AnswersAs (resolveRow pid row).outcome (.ok result) ∧
      result.toOption = row.told (base.opening pid) := by
  have hOpen := Attempt.yields_lift (openProcess_yields base pid)
  rw [resolveRow, Row.told.eq_def]
  by_cases hThreads : row.threads = 0
  case pos =>
    rw [if_pos hThreads]
    refine ⟨.error (.malformed "PROCESSENTRY32W" "no threads"), Attempt.yields_bind_ok hOpen ?_, rfl⟩
    cases base.opening pid with
    | ok handle =>
        simp only [Except.mapError, checkThreads_of_zero hThreads, Attempt.throw_bind,
          Attempt.outcome_ensuring]
        exact Run.Yields.ensuring (.pure _) fun _ hHost => hHost.closed
    | error code =>
        simp only [Except.mapError, checkThreads_of_zero hThreads, Attempt.throw_bind]
        exact .pure _
  case neg =>
    rw [if_neg hThreads]
    cases hOpening : base.opening pid with
    | ok handle =>
        rw [hOpening] at hOpen
        refine ⟨.ok (handle.told row), Attempt.yields_bind_ok hOpen ?_, rfl⟩
        simp only [Except.mapError, checkThreads_of_ne hThreads, pure_bind, Attempt.outcome_ensuring]
        exact (Attempt.yields_map settleName (Attempt.yields_lift (reveal_yields handle row))).ensuring
          fun _ hHost => hHost.closed
    | error code =>
        rw [hOpening] at hOpen
        by_cases hGone : code = 87 ∨ code = 2
        case pos =>
          simp only [if_pos hGone]
          refine ⟨.error (.native "OpenProcess" code), Attempt.yields_bind_ok hOpen ?_, rfl⟩
          simp only [Except.mapError, checkThreads_of_ne hThreads, pure_bind, isGone_native, hGone,
            if_true]
          exact .pure _
        case neg =>
          simp only [if_neg hGone]
          refine ⟨.ok (settleName row.attributes), Attempt.yields_bind_ok hOpen ?_, rfl⟩
          simp only [Except.mapError, checkThreads_of_ne hThreads, pure_bind, isGone_native, hGone,
            if_false]
          exact Attempt.yields_bind_ok (Attempt.yields_lift (note_yields _)) (.pure _)

/-- The attributes of a process, given what came of reading the process table. -/
def Kernel.told (kernel : Kernel) (table : Except Failure Table) (pid : Int32) : Option Attributes :=
  table.toOption.bind fun table => (table.lookup pid).bind fun row => row.told (kernel.opening pid)

theorem resolve_yields (base : Kernel) (table : Table) (pid : Int32) (notice : Failure → Notice) :
    Run.Yields base.AnswersAs ((resolve table pid).orNote notice)
      (.ok (base.told (.ok table) pid)) := by
  rw [Kernel.told, Except.toOption, Option.bind_some, resolve]
  cases table.lookup pid with
  | none =>
      exact Attempt.yields_orNote (Attempt.yields_ofExcept (.error _)) fun _ => note_yields _
  | some row =>
      obtain ⟨result, hRow, hTold⟩ := exists_resolveRow_yields base pid row
      rw [Option.bind_some, ← hTold]
      exact Attempt.yields_orNote hRow fun _ => note_yields _

theorem batch_yields (base : Kernel) (pids : List Int32) (release : Release) :
    Run.Yields base.AnswersAs (batch pids release)
      ((fun table => pids.map (base.told table)) <$> base.table) := by
  rw [map_eq_pure_bind]
  refine (readTable_yields base).bind fun table => ?_
  cases table with
  | ok table =>
      exact Run.Yields.mapM_ok (fun pid => resolve_yields base table pid (.processUnreadable pid)) pids
  | error failure =>
      have hNone : pids.map (base.told (.error failure)) = List.replicate pids.length none :=
        List.map_const'
      rw [hNone]
      exact (note_yields _).bind_ok (.pure _)

/-- A single look is a batch of one process. -/
theorem attributes_yields (base : Kernel) (pid : Int32) (release : Release) :
    Run.Yields base.AnswersAs (attributes pid release) ((base.told · pid) <$> base.table) := by
  have hBatch := (batch_yields base [pid] release).map fun answers => answers.getLast?.join
  rwa [Functor.map_map] at hBatch

theorem listPids_yields (base : Kernel) :
    Run.Yields base.AnswersAs listPids.outcome ((Table.pids <$> ·) <$> base.table) :=
  Attempt.yields_map Table.pids (readTable_yields base)

end Steady

end ProcessCensus.Windows
