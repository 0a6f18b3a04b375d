import ProcessCensus.Proofs.Source.Live
import ProcessCensus.Proofs.Windows.Resolver

/-!
Looking at processes on Windows one by one, many at a time, and listing them. Main statement: as long
as the system stands, all of these tell the same, and which processes are told, and by which row of the
process table, depends only on the rows and on whether the processes can be opened.
-/

namespace ProcessCensus.Windows

/-- A copy of the process table can be taken, and has a row at least. -/
def Kernel.Walks (kernel : Kernel) : Prop :=
  kernel.tableRefusal = none ∧ kernel.rowRefusal = none ∧ kernel.rows ≠ []

/-- The process has gone by the time it is opened. -/
def Kernel.Gone (kernel : Kernel) (pid : Int32) : Prop :=
  kernel.opening pid = .error 87 ∨ kernel.opening pid = .error 2

variable {kernel : Kernel} {rows : List (Int32 × Row)} {pid : Int32} {row : Row} {a : Attributes}

theorem exists_rows {records : List Bytes}
    (hRecords : ∀ record ∈ records, Record.processRow.size ≤ record.length) :
    ∃ rows, records.mapM Row.ofRecord = .ok rows := by
  induction records with
  | nil => exact ⟨[], rfl⟩
  | cons record rest ih =>
      obtain ⟨hRecord, hRest⟩ := List.forall_mem_cons.mp hRecords
      obtain ⟨row, hRow⟩ := Row.ofRecord_eq_ok hRecord
      obtain ⟨rows, hRows⟩ := ih hRest
      refine ⟨row :: rows, ?_⟩
      rw [List.mapM_cons, hRow, hRows]
      rfl

theorem table_of_walks (hWalks : kernel.Walks) (hRows : kernel.rows.mapM Row.ofRecord = .ok rows) :
    kernel.table = .ok (.ok (.ofRows rows)) := by
  obtain ⟨hTable, hRow, hSome⟩ := hWalks
  have hRecords : kernel.tableRecords = .ok kernel.rows := by
    rw [Kernel.tableRecords, hRow]
    exact if_neg fun hEmpty => hSome (List.isEmpty_iff.mp hEmpty)
  rw [Kernel.table, hTable, Kernel.copiedRows, hRecords]
  simp only [hRows]
  rfl

theorem table_of_not_walks (hWalks : ¬kernel.Walks) :
    ∃ failure, kernel.table = .ok (.error failure) := by
  rw [Kernel.table, Kernel.copiedRows, Kernel.tableRecords]
  cases hTable : kernel.tableRefusal with
  | some code => exact ⟨_, rfl⟩
  | none =>
      cases hRow : kernel.rowRefusal with
      | some code => exact ⟨_, rfl⟩
      | none =>
          have hEmpty : kernel.rows = [] :=
            Classical.not_not.mp fun hSome => hWalks ⟨hTable, hRow, hSome⟩
          rw [hEmpty]
          exact ⟨_, rfl⟩

/-- A process has no attributes if its row says that it has no threads, or if it is gone. -/
theorem Row.told_eq_none_iff :
    row.told (kernel.opening pid) = none ↔ row.threads = 0 ∨ kernel.Gone pid := by
  rw [Kernel.Gone, Row.told.eq_def]
  by_cases hThreads : row.threads = 0
  case pos => simp [hThreads]
  case neg => cases kernel.opening pid <;> simp [hThreads, or_iff_not_imp_left]

/-- A process that may not be opened is named as its row names it. -/
theorem Row.told_name {code : Int32} (hOpening : kernel.opening pid = .error code)
    (hTold : row.told (kernel.opening pid) = some a) : a.name = row.file := by
  have hName : (settleName row.attributes).name = row.file := rfl
  rw [Row.told.eq_def, hOpening] at hTold
  split at hTold
  · cases hTold
  · dsimp only at hTold
    split at hTold
    · cases hTold
    · cases hTold
      exact hName

/-- What is told from the table of some rows takes the last row for the pid. -/
theorem told_ofRows (rows : List (Int32 × Row)) (pid : Int32) :
    kernel.told (.ok (.ofRows rows)) pid =
      (rows.reverse.lookup pid).bind fun row => row.told (kernel.opening pid) := by
  rw [Kernel.told, Except.toOption, Option.bind_some, Table.lookup_ofRows]

/-- What comes of reading the process table, where `rows` are the rows in a copy of it. -/
inductive Kernel.Reads (kernel : Kernel) (rows : List (Int32 × Row)) : Except Failure Table → Prop where
  | whole (hWalks : kernel.Walks) : Reads kernel rows (.ok (.ofRows rows))
  | refused (hWalks : ¬kernel.Walks) (failure : Failure) : Reads kernel rows (.error failure)

theorem exists_reads (hRows : kernel.rows.mapM Row.ofRecord = .ok rows) :
    ∃ table, kernel.table = .ok table ∧ kernel.Reads rows table := by
  by_cases hWalks : kernel.Walks
  case pos => exact ⟨_, table_of_walks hWalks hRows, .whole hWalks⟩
  case neg =>
    obtain ⟨failure, hFailure⟩ := table_of_not_walks hWalks
    exact ⟨_, hFailure, .refused hWalks failure⟩

namespace Kernel.Reads

variable {table : Except Failure Table}

theorem told_eq_none_iff (hReads : kernel.Reads rows table) :
    kernel.told table pid = none ↔ ¬kernel.Walks ∨ rows.reverse.lookup pid = none ∨
      (∃ row, rows.reverse.lookup pid = some row ∧ row.threads = 0) ∨ kernel.Gone pid := by
  cases hReads with
  | whole hWalks =>
      rw [told_ofRows]
      cases rows.reverse.lookup pid with
      | none => simp
      | some row => simp [Row.told_eq_none_iff, hWalks]
  | refused hWalks failure => exact iff_of_true rfl (.inl hWalks)

theorem told_eq_some (hReads : kernel.Reads rows table) (hRow : rows.reverse.lookup pid = some row)
    (hTold : kernel.told table pid = some a) : row.told (kernel.opening pid) = some a := by
  cases hReads with
  | whole hWalks => rwa [told_ofRows, hRow] at hTold
  | refused hWalks failure => cases hTold

theorem walks_iff (hReads : kernel.Reads rows table) :
    kernel.Walks ↔ ∃ pids, Table.pids <$> table = .ok pids := by
  cases hReads with
  | whole hWalks => exact iff_of_true hWalks ⟨_, rfl⟩
  | refused hWalks failure => exact iff_of_false hWalks fun ⟨_, hPids⟩ => by cases hPids

theorem listed (hReads : kernel.Reads rows table) {pids : List Int32}
    (hPids : Table.pids <$> table = .ok pids) :
    pids.Pairwise (· < ·) ∧ ∀ pid, pid ∈ pids ↔ pid ∈ rows.map (·.1) := by
  cases hReads with
  | whole hWalks =>
      cases hPids
      exact ⟨Table.ascending_ofRows rows, Table.mem_pids_ofRows rows⟩
  | refused hWalks failure => cases hPids

end Kernel.Reads

/-- A process about which anything is told is alive. -/
theorem told_fresh {table : Except Failure Table} (hTold : kernel.told table pid = some a) :
    a.Fresh := by
  obtain ⟨entries, -, hTold⟩ := Option.bind_eq_some_iff.mp hTold
  obtain ⟨row, -, hTold⟩ := Option.bind_eq_some_iff.mp hTold
  have hShown := Row.shown_of_told hTold
  have hThreads : a.threads ≠ 0 := hShown.threads ▸ hShown.threads_ne
  have hState : a.state ≠ .invalid := hShown.state ▸ RunState.noConfusion
  exact ⟨by grind, hState, hShown.upTime⟩

theorem source_reportsLive : source.ReportsLive := by
  refine .of_fresh (fun pid release host a hAnswer => ?_)
    fun pids release host answers hAnswers a hMem => ?_
  · have hOn : ((attributes pid release).on host).1 = .ok (some a) := hAnswer
    rw [(attributes_yields host.kernel pid release host (.refl host)).1] at hOn
    obtain ⟨table, -, hTold⟩ := Run.exists_ok_of_map hOn
    exact told_fresh hTold
  · have hOn : ((batch pids release).on host).1 = .ok answers := hAnswers
    rw [(batch_yields host.kernel pids release host (.refl host)).1] at hOn
    obtain ⟨table, -, rfl⟩ := Run.exists_ok_of_map hOn
    obtain ⟨pid, -, hTold⟩ := List.mem_map.mp hMem
    exact told_fresh hTold

/-- As long as the system stands, looks at many processes, looks at single ones and the list agree. The
list has the pid of every row, each once and in ascending order. A look takes the last row for its pid.
It tells nothing if the table cannot be read, if there is no such row or the row has no threads, or if
the process has gone by the time it is opened; a process that may not be opened is told with what its
row has. -/
theorem looks_agree (kernel : Kernel)
    (hRecords : ∀ record ∈ kernel.rows, Record.processRow.size ≤ record.length) :
    ∃ rows, kernel.rows.mapM Row.ofRecord = .ok rows ∧ ∃ told : Int32 → Option Attributes,
      (∀ pids release, Run.Yields kernel.AnswersAs (source.batch pids release)
        (.ok (pids.map told))) ∧
      (∀ pid release, Run.Yields kernel.AnswersAs (source.attributes pid release)
        (.ok (told pid))) ∧
      (∀ pid, told pid = none ↔ ¬kernel.Walks ∨ rows.reverse.lookup pid = none ∨
        (∃ row, rows.reverse.lookup pid = some row ∧ row.threads = 0) ∨ kernel.Gone pid) ∧
      (∀ pid row a, rows.reverse.lookup pid = some row → told pid = some a →
        (a.parent = row.parent ∧ a.threads = row.threads ∧ a.priority = row.priority) ∧
        ∀ code, kernel.opening pid = .error code → a.name = row.file) ∧
      ∃ listed, Run.Yields kernel.AnswersAs source.list.outcome (.ok listed) ∧
        (kernel.Walks ↔ ∃ pids, listed = .ok pids) ∧
        ∀ pids, listed = .ok pids →
          pids.Pairwise (· < ·) ∧ ∀ pid, pid ∈ pids ↔ pid ∈ rows.map (·.1) := by
  obtain ⟨rows, hRows⟩ := exists_rows hRecords
  obtain ⟨table, hTable, hReads⟩ := exists_reads hRows
  have hBatch := batch_yields kernel
  have hAttributes := attributes_yields kernel
  have hList := listPids_yields kernel
  rw [hTable] at hBatch hAttributes hList
  refine ⟨rows, hRows, kernel.told table, hBatch, hAttributes, fun pid => hReads.told_eq_none_iff,
    fun pid row a hRow hTold => ?_, _, hList, hReads.walks_iff, fun pids => hReads.listed⟩
  have hRowTold := hReads.told_eq_some hRow hTold
  have hShown := Row.shown_of_told hRowTold
  exact ⟨⟨hShown.parent, hShown.threads, hShown.priority⟩,
    fun code hOpening => Row.told_name hOpening hRowTold⟩

/-- A system with three rows, two of them for one pid. That process may not be opened, and the other one
has gone. -/
def crowdedKernel : Kernel :=
  { Kernel.idle 4 with
    rows := [Entry.record ⟨4, 0, 1, 8, [83, 121, 115], 0xff⟩, Entry.record ⟨-3, 4, 2, 8, [97], 0⟩,
      Entry.record ⟨4, -3, 7, 13, [98], 0xff⟩]
    processes := [(4, .error 5)] }

theorem mapM_rows_crowdedKernel :
    crowdedKernel.rows.mapM Row.ofRecord =
      .ok [(4, ⟨0, 1, 8, "Sys"⟩), (-3, ⟨4, 2, 8, "a"⟩), (4, ⟨-3, 7, 13, "b"⟩)] := by
  decide +kernel

/-- The last of two rows is told, also where the process may not be opened. -/
theorem looks_agree_crowded :
    (∀ record ∈ crowdedKernel.rows, Record.processRow.size ≤ record.length) ∧
      ∃ told : Int32 → Option Attributes,
        Run.Yields crowdedKernel.AnswersAs (source.batch [4, -3, 4, 99] ⟨10, 0⟩)
          (.ok [told 4, told (-3), told 4, told 99]) ∧
        Run.Yields crowdedKernel.AnswersAs (source.attributes 4 ⟨10, 0⟩) (.ok (told 4)) ∧
        told (-3) = none ∧ told 99 = none ∧
        (∃ a, told 4 = some a ∧ a.name = "b" ∧ a.parent = -3 ∧ a.threads = 7 ∧ a.priority = 13) ∧
        ∃ pids, Run.Yields crowdedKernel.AnswersAs source.list.outcome (.ok (.ok pids)) ∧
          pids.Pairwise (· < ·) ∧ ∀ pid, pid ∈ pids ↔ pid = 4 ∨ pid = -3 := by
  have hRecords : ∀ record ∈ crowdedKernel.rows, Record.processRow.size ≤ record.length := by
    decide +kernel
  have hWalks : crowdedKernel.Walks := ⟨rfl, rfl, List.cons_ne_nil _ _⟩
  obtain ⟨rows, hRows, told, hBatch, hAttributes, hNone, hTold, listed, hListed, hWalked, hPids⟩ :=
    looks_agree crowdedKernel hRecords
  obtain rfl : _ = rows := Except.ok.inj (mapM_rows_crowdedKernel.symm.trans hRows)
  obtain ⟨a, hSome⟩ : ∃ a, told 4 = some a := by
    refine Option.ne_none_iff_exists'.mp fun hFour => ?_
    obtain hWalk | hRow | ⟨row, hRow, hThreads⟩ | hGone | hGone := (hNone 4).mp hFour
    · exact hWalk hWalks
    · cases hRow
    · cases hRow
      cases hThreads
    · cases hGone
    · cases hGone
  obtain ⟨⟨hParent, hThreads, hPriority⟩, hName⟩ := hTold 4 _ a rfl hSome
  obtain ⟨pids, rfl⟩ := hWalked.mp hWalks
  obtain ⟨hAscending, hMember⟩ := hPids pids rfl
  refine ⟨hRecords, told, hBatch _ _, hAttributes _ _, (hNone (-3)).mpr ?_, (hNone 99).mpr ?_,
    ⟨a, hSome, hName 5 rfl, hParent, hThreads, hPriority⟩, pids, hListed, hAscending, fun pid => ?_⟩
  · exact .inr (.inr (.inr (.inl rfl)))
  · exact .inr (.inl rfl)
  · rw [hMember]
    grind

end ProcessCensus.Windows
