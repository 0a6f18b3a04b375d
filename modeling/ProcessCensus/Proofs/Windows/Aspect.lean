import ProcessCensus.Proofs.Source.Aspect
import ProcessCensus.Proofs.Windows.Resolver

/-!
Aspects of a process on Windows. A handle of the process is asked for each of them by a call of its
own. Name and path are made to agree at the end, which no aspect but the path has a say in.
-/

namespace ProcessCensus.Windows

/-- The handle with the answer for one aspect withheld. -/
def Handle.withhold (handle : Handle) : Aspect → Handle
  | .path => { handle with path := .error Kernel.refused }
  | .times => { handle with times := .error Kernel.refused }
  | .memory => { handle with memory := (Kernel.accessDenied, []) }
  | .transfers => { handle with transfers := .error Kernel.refused }
  | .openFiles => { handle with handles := .error Kernel.refused }
  | .bitness => { handle with emulated := .error Kernel.refused }
  | .directory | .user | .group => handle

/-- The call on the handle for an aspect fails. -/
def Handle.Silent (handle : Handle) : Aspect → Prop
  | .path => ∃ code, handle.path = .error code
  | .times => ∃ code, handle.times = .error code
  | .memory => handle.memory.1 ≠ 0
  | .transfers => ∃ code, handle.transfers = .error code
  | .openFiles => ∃ code, handle.handles = .error code
  | .bitness => ∃ code, handle.emulated = .error code
  | .directory | .user | .group => False

/-- The kernels have the same process table, and handles of the process that answer alike, except for
the call for one aspect. -/
structure Apart (aspect : Aspect) (pid : Int32) (host host' : Host Kernel) : Prop where
  tableRefusal : host.kernel.tableRefusal = host'.kernel.tableRefusal
  rowRefusal : host.kernel.rowRefusal = host'.kernel.rowRefusal
  rows : host.kernel.rows = host'.kernel.rows
  handles : ∃ handle handle', host.kernel.opening pid = .ok handle ∧
    host'.kernel.opening pid = .ok handle' ∧ handle.withhold aspect = handle'.withhold aspect

/-- The row of a process, if there is one that can be read. -/
def Kernel.row? (kernel : Kernel) (pid : Int32) : Option Row :=
  match kernel.table with
  | .ok (.ok table) => table.lookup pid
  | _ => none

/-- The name in the row of a process. -/
def Kernel.fileOf (kernel : Kernel) (pid : Int32) : String :=
  ((kernel.row? pid).map (·.file)).getD ""

/-- A process without a known executable has the name in its row, which stands for its path too. -/
def probing : Probing Kernel where
  apart := Apart
  silent aspect pid _ host := ∃ handle, host.kernel.opening pid = .ok handle ∧ handle.Silent aspect
  fallbackPath pid host := host.kernel.fileOf pid
  fallbackName pid host := host.kernel.fileOf pid

theorem without_settleName_path (a : Attributes) (path name : String) :
    (settleName a).without path name .path = a.without path name .path := by
  rw [settleName_eq]
  rfl

theorem without_settleName {aspect : Aspect} (hAspect : aspect ≠ .path) (a : Attributes)
    (path name : String) :
    (settleName a).without path name aspect = settleName (a.without path name aspect) := by
  simp only [settleName, apply_ite (fun b : Attributes => b.without path name aspect)]
  cases aspect with
  | path => exact absurd rfl hAspect
  | _ => rfl

/-- Handles that answer alike except for one aspect tell the same of a process except for that. -/
theorem Handle.without_told {handle handle' : Handle} {aspect : Aspect}
    (hAlike : handle.withhold aspect = handle'.withhold aspect) (row : Row) (path name : String) :
    (handle.told row).without path name aspect = (handle'.told row).without path name aspect := by
  obtain ⟨_, _, _, _, _, _, _⟩ := handle
  obtain ⟨_, _, _, _, _, _, _⟩ := handle'
  rw [told, told]
  by_cases hAspect : aspect = .path
  case pos =>
    subst hAspect
    simp only [withhold, Handle.mk.injEq] at hAlike
    obtain ⟨-, rfl, rfl, rfl, rfl, rfl, rfl⟩ := hAlike
    rw [without_settleName_path, without_settleName_path]
    rfl
  case neg =>
    rw [without_settleName hAspect, without_settleName hAspect]
    refine congrArg settleName ?_
    cases aspect with
    | path => exact absurd rfl hAspect
    | _ =>
      simp only [withhold, Handle.mk.injEq] at hAlike
      simp [hAlike, enter, readPath, counters?, Attributes.without]

/-- An aspect for which the call on the handle fails is unknown. -/
theorem Handle.without_of_silent {handle : Handle} {aspect : Aspect}
    (hSilent : handle.Silent aspect) (row : Row) :
    (handle.told row).without row.file row.file aspect = handle.told row := by
  by_cases hAspect : aspect = .path
  case pos =>
    subst hAspect
    obtain ⟨code, hPath⟩ := hSilent
    have hRead : handle.readPath.toOption.getD "" = "" := by
      rw [readPath, hPath]
      rfl
    rw [told, hRead]
    rfl
  case neg =>
    rw [told, without_settleName hAspect]
    refine congrArg settleName ?_
    cases aspect with
    | path => exact absurd rfl hAspect
    | memory =>
        have hCounters : handle.counters? = none := if_neg hSilent
        rw [hCounters]
        rfl
    | times | transfers | openFiles | bitness =>
        obtain ⟨code, hCode⟩ := hSilent
        simp only [enter, hCode]
        rfl
    | directory | user | group => exact hSilent.elim

theorem Apart.table_eq {aspect : Aspect} {pid : Int32} {host host' : Host Kernel}
    (hApart : Apart aspect pid host host') : host.kernel.table = host'.kernel.table := by
  rw [Kernel.table, Kernel.table, Kernel.copiedRows, Kernel.copiedRows, Kernel.tableRecords,
    Kernel.tableRecords, hApart.tableRefusal, hApart.rowRefusal, hApart.rows]

/-- What a handle tells of a process, if its row can be read and says that it has a thread. -/
def Handle.toldBy (handle : Handle) (row? : Option Row) : Option Attributes :=
  (row?.filter (·.threads ≠ 0)).map handle.told

/-- A look at a process that can be opened breaks off only where the process table breaks it off. -/
theorem attributes_opened {host : Host Kernel} {pid : Int32} {handle : Handle}
    (hOpening : host.kernel.opening pid = .ok handle) (release : Release) :
    ((attributes pid release).on host).1 =
      (fun _ => handle.toldBy (host.kernel.row? pid)) <$> host.kernel.table := by
  rw [(attributes_yields host.kernel pid release host (.refl host)).1, Kernel.row?]
  cases host.kernel.table with
  | error abort => rfl
  | ok table =>
      refine congrArg Except.ok ?_
      cases table with
      | error failure => rfl
      | ok table =>
          simp only [Kernel.told, Except.toOption, Option.bind_some, hOpening]
          cases table.lookup pid with
          | none => rfl
          | some row =>
              rw [Option.bind_some, Row.told.eq_def, Handle.toldBy, Option.filter_some]
              by_cases hThreads : row.threads = 0 <;> simp [hThreads]

theorem source_isolates : source.Isolates probing where
  isolated aspect pid release host host' hApart path name := by
    obtain ⟨handle, handle', hOpening, hOpening', hAlike⟩ := hApart.handles
    have hRow : host.kernel.row? pid = host'.kernel.row? pid := by
      rw [Kernel.row?, hApart.table_eq]
      rfl
    rw [source, attributes_opened hOpening, attributes_opened hOpening', hApart.table_eq, hRow,
      Functor.map_map, Functor.map_map]
    refine congrArg (· <$> host'.kernel.table) (funext fun _ => ?_)
    simp only [Handle.toldBy, Option.map_map]
    refine congrArg (Option.map · _) (funext fun row => ?_)
    exact Handle.without_told hAlike row path name
  unknown aspect pid release host a hSilent hAttributes := by
    obtain ⟨handle, hOpening, hSilent⟩ := hSilent
    rw [source, attributes_opened hOpening] at hAttributes
    obtain ⟨table, -, hTold⟩ := Run.exists_ok_of_map hAttributes
    obtain ⟨row, hRow, rfl⟩ := Option.map_eq_some_iff.mp hTold
    have hFile : host.kernel.fileOf pid = row.file := by
      rw [Kernel.fileOf, Option.eq_some_of_filter_eq_some hRow]
      rfl
    simp only [probing, hFile]
    exact Handle.without_of_silent hSilent row

end ProcessCensus.Windows
