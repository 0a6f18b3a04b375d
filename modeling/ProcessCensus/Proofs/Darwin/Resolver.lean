import ProcessCensus.Proofs.Accounts
import ProcessCensus.Proofs.Darwin.Parameter
import ProcessCensus.Proofs.Record.Read
import ProcessCensus.Proofs.Source.Live

/-!
What is told about a Darwin process is its record, completed with what a few other calls find. A call
uses up none of the answers to another one, so each of them finds what it would find if it were made
alone.
-/

namespace ProcessCensus.Darwin

open Record

namespace Kernel

/-- The next answer to a call. -/
def reply? (kernel : Kernel) (call : Call) : Option Reply :=
  (kernel.script? call).bind Script.peek?

/-- Nothing has been used up but answers to some calls. -/
structure Spares (kernel : Kernel) (calls : List Call) (after : Kernel) : Prop where
  reply : ∀ call, call ∉ calls → after.reply? call = kernel.reply? call
  users : after.users = kernel.users
  groups : after.groups = kernel.groups
  clock : after.clock = kernel.clock
  timebase : after.timebase = kernel.timebase

theorem Spares.refl (kernel : Kernel) (calls : List Call) : kernel.Spares calls kernel :=
  ⟨fun _ _ => rfl, rfl, rfl, rfl, rfl⟩

theorem Spares.trans {kernel middle after : Kernel} {calls others : List Call}
    (hFirst : kernel.Spares calls middle) (hSecond : middle.Spares others after) :
    kernel.Spares (calls ++ others) after where
  reply call hCall := by
    obtain ⟨hCalls, hOthers⟩ := List.mem_append.not.trans not_or |>.mp hCall
    exact (hSecond.reply call hOthers).trans (hFirst.reply call hCalls)
  users := hSecond.users.trans hFirst.users
  groups := hSecond.groups.trans hFirst.groups
  clock := hSecond.clock.trans hFirst.clock
  timebase := hSecond.timebase.trans hFirst.timebase

theorem spares_answered (kernel : Kernel) (call : Call) :
    kernel.Spares [call] (kernel.answered call) where
  reply _ hOther := congrArg (Option.bind · Script.peek?)
    (script?_answered (List.ne_of_not_mem_cons hOther))
  users := rfl
  groups := rfl
  clock := rfl
  timebase := rfl

/-- What a call with a buffer comes to hangs on its next answer only. -/
theorem perform_eq (kernel : Kernel) (call : Call) (capacity : Nat) :
    ∃ after, kernel.perform call capacity =
      (match kernel.reply? call with
        | some (.data content count) =>
          .ok ⟨content.take capacity, count.getD (content.take capacity).length⟩
        | some (.failing code) => .error code
        | none => .error (unscripted call), after) ∧ kernel.Spares [call] after := by
  rw [perform, ← reply?]
  rcases kernel.reply? call with _ | ⟨content, count⟩ | code
  · exact ⟨_, rfl, .refl kernel _⟩
  · exact ⟨_, rfl, kernel.spares_answered call⟩
  · exact ⟨_, rfl, kernel.spares_answered call⟩

end Kernel

variable {α : Type} {call : Call}

/-- The attempt asks nothing but this call. What it comes to hangs on the next answer to it. -/
def Asks (call : Call) (attempt : Attempt Kernel α) : Prop :=
  ∃ result : Option Reply → Except Failure α, ∀ host, ∃ after,
    attempt.outcome.on host = (.ok (result (host.kernel.reply? call)), after) ∧
      host.kernel.Spares [call] after.kernel

/-- What is made of an answer without asking anything else, or the failure of the call. -/
theorem perform_bind_on (name : String) (call : Call) (capacity : Nat)
    {next : Written → Attempt Kernel α} {made : Written → Except Failure α}
    (hNext : ∀ written host, (next written).outcome.on host = (.ok (made written), host))
    (host : Host Kernel) :
    ∃ after, (perform name call capacity >>= next).outcome.on host =
      (.ok (match host.kernel.reply? call with
        | some (.data content count) =>
          made ⟨content.take capacity, count.getD (content.take capacity).length⟩
        | some (.failing code) => .error (.native name code)
        | none => .error (.native name (Kernel.unscripted call))), after) ∧
      host.kernel.Spares [call] after.kernel := by
  obtain ⟨after, hPerform, hSpares⟩ := host.kernel.perform_eq call capacity
  have hCall : (perform name call capacity).outcome.on host =
      (.ok ((host.kernel.perform call capacity).1.mapError (.native name ·)),
        { host with kernel := (host.kernel.perform call capacity).2 }) := rfl
  rw [hPerform] at hCall
  refine ⟨{ host with kernel := after }, ?_, hSpares⟩
  cases hReply : host.kernel.reply? call with
  | none =>
      rw [hReply] at hCall
      exact Attempt.on_bind_of_failure hCall _
  | some reply =>
      rw [hReply] at hCall
      cases reply with
      | failing code => exact Attempt.on_bind_of_failure hCall _
      | data content count => exact (Attempt.on_bind_of_eq hCall _).trans (hNext _ _)

theorem asks_perform_bind (name : String) (call : Call) (capacity : Nat)
    {next : Written → Attempt Kernel α}
    (hNext : ∀ written, ∃ result, ∀ host, (next written).outcome.on host = (.ok result, host)) :
    Asks call (perform name call capacity >>= next) := by
  choose made hMade using hNext
  exact ⟨fun reply => match reply with
    | some (.data content count) =>
      made ⟨content.take capacity, count.getD (content.take capacity).length⟩
    | some (.failing code) => .error (.native name code)
    | none => .error (.native name (Kernel.unscripted call)), perform_bind_on name call capacity hMade⟩

/-- What is read from a record that was answered in full. -/
theorem processRecord_bind (pid : Int32) (flavor : Nat) (layout : Record.Layout)
    {next : Bytes → Attempt Kernel α}
    (hNext : ∀ record, record.length = layout.size →
      ∃ result, ∀ host, (next record).outcome.on host = (.ok result, host)) :
    Asks (.processInfo pid flavor) (processRecord pid flavor layout >>= next) := by
  rw [processRecord, bind_assoc]
  refine asks_perform_bind _ _ _ fun written => ?_
  by_cases hFailed : written.count ≤ 0
  case pos =>
    simp only [if_pos hFailed]
    exact ⟨_, fun _ => rfl⟩
  case neg =>
    simp only [if_neg hFailed]
    by_cases hShort : written.count < layout.size
    case pos =>
      simp only [if_pos hShort]
      exact ⟨_, fun _ => rfl⟩
    case neg =>
      simp only [if_neg hShort, pure_bind]
      exact hNext _ (Sizing.Buffer.length_toList _)

theorem asks_processPath (pid : Int32) : Asks (.processPath pid) (processPath pid) := by
  refine asks_perform_bind _ _ _ fun written => ?_
  split
  · exact ⟨_, fun _ => rfl⟩
  · exact ⟨_, fun _ => rfl⟩

theorem asks_workingDirectory (pid : Int32) :
    Asks (.processInfo pid pathsFlavor) (workingDirectory pid) := by
  refine processRecord_bind pid pathsFlavor Record.processPaths fun record hRecord => ?_
  have hHolds : Record.processPaths.Holds "pvi_cdir.vip_path" 1024 := by decide
  obtain ⟨field, hField⟩ := hHolds.bytes_eq_ok (Nat.le_of_eq hRecord.symm)
  rw [Record.Layout.readCString_eq, hField]
  exact ⟨_, fun _ => rfl⟩

theorem asks_diskUsage (pid : Int32) (release : Release) :
    Asks (.resourceUsage pid usageFlavor) (diskUsage pid release) := by
  rw [diskUsage, resourceUsageFor]
  split
  case h_1 => exact ⟨fun _ => .ok (0, 0), fun host => ⟨host, rfl, .refl _ _⟩⟩
  case h_2 layout hLayout =>
    obtain rfl : resourceUsage = layout := by
      split at hLayout
      · exact Option.some.inj hLayout
      · cases hLayout
    refine asks_perform_bind _ _ _ fun written => ?_
    have hLength := (written.buffer resourceUsage.size).length_toList
    have hNumber : ∀ path, resourceUsage.Holds path 8 → ∃ value,
        resourceUsage.readUInt64 (written.buffer resourceUsage.size).toList path = .ok value :=
      fun path => Layout.number_eq_ok (Nat.le_of_eq hLength.symm)
    obtain ⟨read, hRead⟩ := hNumber "ri_diskio_bytesread" (by decide)
    obtain ⟨write, hWrite⟩ := hNumber "ri_diskio_byteswritten" (by decide)
    simp only [hRead, hWrite]
    exact ⟨.ok (read, write), fun _ => rfl⟩

theorem TaskRecord.ofBytes_eq_ok {buffer : Bytes} (hBuffer : processTaskInfo.size ≤ buffer.length) :
    ∃ record, TaskRecord.ofBytes buffer = .ok record := by
  have hCommand : processTaskInfo.Holds "pbsd.pbi_comm" 16 := by decide
  obtain ⟨command, hCommand⟩ := hCommand.bytes_eq_ok hBuffer
  rw [ofBytes]
  iterate 5 refine exists_bind_ok (Layout.number_eq_ok hBuffer (by decide)) fun _ => ?_
  refine exists_bind_ok (by rw [Layout.readCString_eq, hCommand]; exact ⟨_, rfl⟩) fun _ => ?_
  iterate 12 refine exists_bind_ok (Layout.number_eq_ok hBuffer (by decide)) fun _ => ?_
  exact ⟨_, rfl⟩

theorem asks_taskRecord (pid : Int32) : Asks (.processInfo pid taskFlavor) (taskRecord pid) := by
  refine processRecord_bind pid taskFlavor processTaskInfo fun buffer hBuffer => ?_
  obtain ⟨record, hRecord⟩ := TaskRecord.ofBytes_eq_ok (Nat.le_of_eq hBuffer.symm)
  rw [hRecord]
  by_cases hThreads : record.threads ≤ 0
  case pos =>
    refine ⟨.error (.malformed processTaskInfo.name "no threads"), fun host => ?_⟩
    exact (Attempt.on_bind_of_eq (Attempt.on_lift_of_eq rfl) _).trans (by rw [if_pos hThreads]; rfl)
  case neg =>
    refine ⟨.ok record, fun host => ?_⟩
    exact (Attempt.on_bind_of_eq (Attempt.on_lift_of_eq rfl) _).trans (by rw [if_neg hThreads]; rfl)

/-- What an attempt finds on a host, if it succeeds there. -/
def found (attempt : Attempt Kernel α) (host : Host Kernel) : Option α :=
  match (attempt.outcome.on host).1 with
  | .ok (.ok value) => some value
  | _ => none

theorem Asks.found_eq {attempt : Attempt Kernel α} (hAsks : Asks call attempt)
    {host after : Host Kernel} (hReply : after.kernel.reply? call = host.kernel.reply? call) :
    found attempt after = found attempt host := by
  obtain ⟨result, hResult⟩ := hAsks
  obtain ⟨_, hHost, -⟩ := hResult host
  obtain ⟨_, hAfter, -⟩ := hResult after
  rw [found, found, hHost, hAfter, hReply]

/-- An attempt that may fail finds what it would find if it were made first. -/
theorem Asks.orElse_on {attempt : Attempt Kernel α} (hAsks : Asks call attempt) (fallback : α)
    (host : Host Kernel) :
    ∃ after, (orElse attempt fallback).on host = (.ok ((found attempt host).getD fallback), after) ∧
      host.kernel.Spares [call] after.kernel := by
  obtain ⟨result, hResult⟩ := hAsks
  obtain ⟨after, hOn, hSpares⟩ := hResult host
  refine ⟨after, ?_, hSpares⟩
  rw [orElse, Attempt.recover, Run.on_bind_of_eq hOn, found, hOn]
  cases result (host.kernel.reply? call) <;> rfl

theorem Asks.orNone_on {attempt : Attempt Kernel α} (hAsks : Asks call attempt)
    (host : Host Kernel) :
    ∃ after, (orElse (some <$> attempt) none).on host = (.ok (found attempt host), after) ∧
      host.kernel.Spares [call] after.kernel := by
  obtain ⟨result, hResult⟩ := hAsks
  obtain ⟨after, hOn, hSpares⟩ := hResult host
  refine ⟨after, ?_, hSpares⟩
  have hSome : (some <$> attempt).outcome.on host =
      (.ok (some <$> result (host.kernel.reply? call)), after) := by
    rw [Attempt.outcome_map, Run.on_map, hOn]
    rfl
  rw [orElse, Attempt.recover, Run.on_bind_of_eq hSome, found, hOn]
  cases result (host.kernel.reply? call) <;> rfl

/-- The timebase that the kernel tells, and that of nanoseconds if it tells none. -/
def Kernel.clockTimebase (kernel : Kernel) : Timebase :=
  if kernel.clock.2 ≠ 0 ∨ kernel.clock.1.denominator = 0 then nanoseconds else kernel.clock.1

/-- The timebase that is used: the one read before, or the one told now. -/
def Kernel.ticks (kernel : Kernel) : Timebase :=
  (kernel.timebase.fresh? 0).getD kernel.clockTimebase

theorem Kernel.ticks_congr {kernel other : Kernel} (hClock : kernel.clock = other.clock)
    (hTimebase : kernel.timebase = other.timebase) : kernel.ticks = other.ticks := by
  rw [ticks, ticks, clockTimebase, clockTimebase, hClock, hTimebase]

/-- The timebase that is used is one read before, that of nanoseconds, or one that is told and does not
divide by 0. -/
theorem Kernel.ticks_of {P : Timebase → Prop} {kernel : Kernel}
    (hKnown : ∀ timebase, kernel.timebase.fresh? 0 = some timebase → P timebase)
    (hNanoseconds : P nanoseconds) (hTold : kernel.clock.1.denominator ≠ 0 → P kernel.clock.1) :
    P kernel.ticks := by
  rw [ticks]
  cases hMemo : kernel.timebase.fresh? 0 with
  | some timebase => exact hKnown timebase hMemo
  | none =>
      rw [Option.getD_none, clockTimebase]
      split
      case isTrue => exact hNanoseconds
      case isFalse hUsable => exact hTold (not_or.mp hUsable).2

theorem readTimebase_on (host : Host Kernel) :
    ∃ journal, readTimebase.on host = (.ok host.kernel.clockTimebase, { host with journal }) := by
  rw [readTimebase, Run.on_bind_of_eq (Run.on_kernel host), Kernel.clockTimebase]
  simp only
  split <;> exact ⟨_, rfl⟩

/-- The timebase that is used stays the one that is used. -/
theorem timebase_on (host : Host Kernel) :
    ∃ after, timebase.on host = (.ok host.kernel.ticks, after) ∧
      after.kernel.ticks = host.kernel.ticks := by
  rw [timebase, Run.on_bind_of_eq (Run.on_kernel host), Kernel.ticks]
  cases hMemo : host.kernel.timebase.fresh? 0 with
  | some known =>
    refine ⟨_, Run.on_bind_of_eq (Memo.on_obtain_of_fresh hMemo _) _, ?_⟩
    rw [Kernel.ticks, hMemo]
  | none =>
    obtain ⟨journal, hRead⟩ := readTimebase_on host
    exact ⟨_, Run.on_bind_of_eq (Memo.on_obtain_of_stale hMemo hRead) _,
      Memo.getD_fresh?_publish _ _ _⟩

/-- What the calls beside the one for the record find about a process. -/
def additions (pid : Int32) (release : Release) (record : TaskRecord) (host : Host Kernel) :
    Additions where
  path := (found (processPath pid) host).getD ""
  directory := found (workingDirectory pid) host
  user := Accounts.user? host.kernel.users record.userId
  group := Accounts.group? host.kernel.groups record.groupId
  bytesRead := ((found (diskUsage pid release) host).getD (0, 0)).1
  bytesWritten := ((found (diskUsage pid release) host).getD (0, 0)).2

/-- What is told of a process is its record with what the other calls find. None of these calls is in the
way of another one, so each finds what it would find alone. -/
theorem resolve_on (pid : Int32) (release : Release) (host : Host Kernel) :
    ∃ result after, (resolve pid release).outcome.on host = (.ok result, after) ∧
      after.kernel.ticks = host.kernel.ticks ∧
      result.toOption = (found (taskRecord pid) host).map fun record =>
        record.attributes host.kernel.ticks (additions pid release record host) := by
  obtain ⟨answer, hAnswer⟩ := asks_taskRecord pid
  obtain ⟨first, hRecord, hFirst⟩ := hAnswer host
  rw [resolve, found, hRecord]
  cases hResult : answer (host.kernel.reply? (.processInfo pid taskFlavor)) with
  | error failure =>
      rw [hResult] at hRecord
      exact ⟨_, _, Attempt.on_bind_of_failure hRecord _,
        Kernel.ticks_congr hFirst.clock hFirst.timebase, rfl⟩
  | ok record =>
      rw [hResult] at hRecord
      obtain ⟨second, hPath, hSecond⟩ := (asks_processPath pid).orElse_on "" first
      obtain ⟨third, hUsage, hThird⟩ := (asks_diskUsage pid release).orElse_on (0, 0) second
      obtain ⟨fourth, hDirectory, hFourth⟩ := (asks_workingDirectory pid).orNone_on third
      obtain ⟨journal, hUser⟩ := Accounts.userName_on fourth.kernel.users record.userId fourth
      obtain ⟨journal', hGroup⟩ :=
        Accounts.groupName_on fourth.kernel.groups record.groupId { fourth with journal }
      obtain ⟨after, hTimebase, hTicks⟩ := timebase_on { fourth with journal := journal' }
      -- What a call finds after the others is what it finds from the start.
      have hTwo := hFirst.trans hSecond
      have hThree := hTwo.trans hThird
      have hAll := hThree.trans hFourth
      have hSame := Kernel.ticks_congr hAll.clock hAll.timebase
      refine ⟨.ok _, after, ?_, hTicks.trans hSame, rfl⟩
      rw [Attempt.on_bind_of_eq hRecord, Attempt.on_bind_of_eq (Attempt.on_lift_of_eq hPath),
        Attempt.on_bind_of_eq (Attempt.on_lift_of_eq hUsage),
        Attempt.on_bind_of_eq (Attempt.on_lift_of_eq hDirectory),
        Attempt.on_bind_of_eq (Attempt.on_lift_of_eq (Run.on_kernel fourth)),
        Attempt.on_bind_of_eq (Attempt.on_lift_of_eq hUser),
        Attempt.on_bind_of_eq (Attempt.on_lift_of_eq hGroup),
        Attempt.on_bind_of_eq (Attempt.on_lift_of_eq hTimebase), Attempt.outcome_pure, Run.on_pure]
      have hPathFound := (asks_processPath pid).found_eq (hFirst.reply _ (by simp))
      have hUsageFound := (asks_diskUsage pid release).found_eq (hTwo.reply _ (by simp))
      have hDirectoryFound := (asks_workingDirectory pid).found_eq
        (hThree.reply _ (by simp [pathsFlavor, taskFlavor]))
      simp only [additions, hPathFound, hUsageFound, hDirectoryFound, hAll.users, hAll.groups, hSame]

theorem attributes_on (pid : Int32) (release : Release) (host : Host Kernel) :
    ((attributes pid release).on host).1 = .ok ((found (taskRecord pid) host).map fun record =>
      record.attributes host.kernel.ticks (additions pid release record host)) := by
  obtain ⟨result, after, hResolve, -, hResult⟩ := resolve_on pid release host
  rw [attributes, Attempt.on_orNote, hResolve, ← hResult]
  rfl

/-- A look does not change the timebase that is used. -/
theorem attributes_ticks (pid : Int32) (release : Release) (host : Host Kernel) :
    ((attributes pid release).on host).2.kernel.ticks = host.kernel.ticks := by
  obtain ⟨result, after, hResolve, hTicks, -⟩ := resolve_on pid release host
  rw [attributes, Attempt.kernel_on_orNote, hResolve]
  exact hTicks

theorem stateOf_ne_invalid (status : UInt32) : stateOf status ≠ .invalid := by
  unfold stateOf
  repeat' split
  all_goals exact RunState.noConfusion

theorem one_le_toUInt32 {threads : Int32} (hThreads : ¬threads ≤ 0) : 1 ≤ threads.toUInt32 := by
  have hWord : threads.toUInt32 ≠ 0 := by
    intro hZero
    rw [← Int32.toInt32_toUInt32 threads, hZero] at hThreads
    exact hThreads (by decide)
  grind

theorem taskRecord_threads (pid : Int32) :
    Attempt.Ensures (fun record => ¬record.threads ≤ 0) (taskRecord pid) := by
  refine Attempt.ensures_bind fun buffer => Attempt.ensures_bind fun record => ?_
  split
  case isTrue => exact Attempt.ensures_throw _
  case isFalse hThreads => exact Attempt.ensures_pure hThreads

/-- What is found is what the attempt ensures. -/
theorem found_ensured {property : α → Prop} {attempt : Attempt Kernel α}
    (hAttempt : Attempt.Ensures property attempt) {host : Host Kernel} {value : α}
    (hFound : found attempt host = some value) : property value := by
  rw [found] at hFound
  split at hFound
  · next other hOn =>
      cases hFound
      exact hAttempt host value hOn
  · cases hFound

/-- A process about which anything is told is alive. -/
theorem attributes_fresh (pid : Int32) (release : Release) (host : Host Kernel) (a : Attributes)
    (hAttributes : ((attributes pid release).on host).1 = .ok (some a)) : a.Fresh := by
  rw [attributes_on] at hAttributes
  obtain ⟨record, hRecord, rfl⟩ := Option.map_eq_some_iff.mp (Except.ok.inj hAttributes)
  exact ⟨one_le_toUInt32 (found_ensured (taskRecord_threads pid) hRecord),
    stateOf_ne_invalid _, rfl⟩

theorem source_reportsLive : source.ReportsLive :=
  .of_readEach rfl attributes_fresh

end ProcessCensus.Darwin
