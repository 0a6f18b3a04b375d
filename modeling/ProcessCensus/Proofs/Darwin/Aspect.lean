import ProcessCensus.Proofs.Darwin.Resolver
import ProcessCensus.Proofs.Source.Aspect

/-!
Aspects of a process on Darwin. The record about the process is the one thing that is needed; the calls
for the other aspects stand side by side.
-/

namespace ProcessCensus.Darwin

/-- The call to the kernel for an aspect, if it is one that the kernel is asked for beside the record. -/
def callFor? (pid : Int32) : Aspect → Option Call
  | .path => some (.processPath pid)
  | .directory => some (.processInfo pid pathsFlavor)
  | .transfers => some (.resourceUsage pid usageFlavor)
  | _ => none

/-- The kernels answer alike, except for the call for one aspect. -/
structure Apart (aspect : Aspect) (pid : Int32) (host host' : Host Kernel) : Prop where
  replies : ∀ call, callFor? pid aspect ≠ some call →
    host.kernel.reply? call = host'.kernel.reply? call
  users : aspect ≠ .user → host.kernel.users = host'.kernel.users
  groups : aspect ≠ .group → host.kernel.groups = host'.kernel.groups
  clock : host.kernel.clock = host'.kernel.clock
  timebase : host.kernel.timebase = host'.kernel.timebase

/-- The call for an aspect comes to nothing. -/
def Silent (aspect : Aspect) (pid : Int32) (release : Release) (host : Host Kernel) : Prop :=
  match aspect with
  | .path => found (processPath pid) host = none
  | .directory => found (workingDirectory pid) host = none
  | .transfers => found (diskUsage pid release) host = none
  | .user => ∀ record, found (taskRecord pid) host = some record →
      Accounts.user? host.kernel.users record.userId = none
  | .group => ∀ record, found (taskRecord pid) host = some record →
      Accounts.group? host.kernel.groups record.groupId = none
  | .openFiles | .bitness | .times | .memory => False

/-- A process without a known executable has no path, and is called by its command name. -/
def probing : Probing Kernel where
  apart := Apart
  silent := Silent
  fallbackPath _ _ := ""
  fallbackName pid host := ((found (taskRecord pid) host).map (·.command)).getD ""

namespace Apart

variable {aspect : Aspect} {pid : Int32} {host host' : Host Kernel}

theorem found_eq {α : Type} {call : Call} {attempt : Attempt Kernel α}
    (hApart : Apart aspect pid host host') (hAsks : Asks call attempt)
    (hCall : callFor? pid aspect ≠ some call) : found attempt host = found attempt host' :=
  hAsks.found_eq (hApart.replies call hCall)

/-- A process with one and the same record differs in the one aspect only. -/
theorem without_eq (hApart : Apart aspect pid host host') (release : Release) (record : TaskRecord)
    (path name : String) :
    (record.attributes host.kernel.ticks (additions pid release record host)).without path name
        aspect =
      (record.attributes host'.kernel.ticks (additions pid release record host')).without path name
        aspect := by
  have hPath (hAspect : aspect ≠ .path) :
      found (processPath pid) host = found (processPath pid) host' :=
    hApart.found_eq (asks_processPath pid) (by cases aspect <;> simp_all [callFor?])
  have hDirectory (hAspect : aspect ≠ .directory) :
      found (workingDirectory pid) host = found (workingDirectory pid) host' :=
    hApart.found_eq (asks_workingDirectory pid) (by cases aspect <;> simp_all [callFor?])
  have hUsage (hAspect : aspect ≠ .transfers) :
      found (diskUsage pid release) host = found (diskUsage pid release) host' :=
    hApart.found_eq (asks_diskUsage pid release) (by cases aspect <;> simp_all [callFor?])
  have hUsers := hApart.users
  have hGroups := hApart.groups
  rw [Kernel.ticks_congr hApart.clock hApart.timebase]
  cases aspect <;>
    simp [TaskRecord.attributes, additions, Attributes.without, hPath, hDirectory, hUsage, hUsers,
      hGroups]

end Apart

/-- Without a path a process has its command name. -/
theorem processName_empty (command : String) : processName "" command = command := rfl

/-- An aspect whose call comes to nothing is unknown. -/
theorem without_of_silent {aspect : Aspect} {pid : Int32} {release : Release} {host : Host Kernel}
    (hSilent : Silent aspect pid release host) {record : TaskRecord}
    (hRecord : found (taskRecord pid) host = some record) :
    let a := record.attributes host.kernel.ticks (additions pid release record host)
    a.without "" record.command aspect = a := by
  cases aspect with
  | path =>
      have hPath : found (processPath pid) host = none := hSilent
      simp [Attributes.without, TaskRecord.attributes, additions, hPath, processName_empty]
  | directory =>
      have hDirectory : found (workingDirectory pid) host = none := hSilent
      simp [Attributes.without, TaskRecord.attributes, additions, hDirectory, Attributes.unknown]
  | transfers =>
      have hUsage : found (diskUsage pid release) host = none := hSilent
      simp [Attributes.without, TaskRecord.attributes, additions, hUsage, Attributes.unknown]
  | user =>
      have hUser := hSilent record hRecord
      simp [Attributes.without, TaskRecord.attributes, additions, hUser, Attributes.unknown]
  | group =>
      have hGroup := hSilent record hRecord
      simp [Attributes.without, TaskRecord.attributes, additions, hGroup, Attributes.unknown]
  | openFiles | bitness | times | memory => exact hSilent.elim

theorem source_isolates : source.Isolates probing where
  isolated aspect pid release host host' hApart path name := by
    have hRecord : found (taskRecord pid) host = found (taskRecord pid) host' :=
      hApart.found_eq (asks_taskRecord pid)
        (by cases aspect <;> simp [callFor?, taskFlavor, pathsFlavor])
    rw [source, attributes_on, attributes_on, hRecord]
    cases found (taskRecord pid) host' with
    | none => rfl
    | some record =>
        exact congrArg (fun a => Except.ok (some a)) (hApart.without_eq release record path name)
  unknown aspect pid release host a hSilent hAttributes := by
    rw [source, attributes_on] at hAttributes
    obtain ⟨record, hRecord, rfl⟩ := Option.map_eq_some_iff.mp (Except.ok.inj hAttributes)
    have hName : probing.fallbackName pid host = record.command := by
      simp only [probing, hRecord, Option.map_some, Option.getD_some]
    rw [hName]
    exact without_of_silent hSilent hRecord

end ProcessCensus.Darwin
