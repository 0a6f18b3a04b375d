import ProcessCensus.Proofs.Linux.Times
import ProcessCensus.Proofs.Session.LastLook

/-!
The start of a process as its identity. Whatever becomes of the files between two looks, even of what
they say about the start of the system, a process is told to have started at the same time as long as
its status line has the same ticks, and processes are told to have started in the order of their ticks.
-/

namespace ProcessCensus

/-- The processes of which something is told in a log, each with its start. -/
def Log.starts (log : Log) : List (Int32 × UInt64) :=
  log.filterMap fun
    | .looked ⟨pid, some a, _⟩ => some (pid, a.startTime)
    | _ => none

namespace Log

@[simp] theorem starts_append (first second : Log) :
    starts (first ++ second) = starts first ++ starts second :=
  List.filterMap_append

@[simp] theorem starts_looked (pid : Int32) (outcome : Except Abort (Option Attributes)) (clock : Int) :
    starts (Source.looked pid outcome clock) =
      (outcome.toOption.join.map fun a => (pid, a.startTime)).toList := by
  rcases outcome with _ | _ | _ <;> rfl

theorem mem_starts_of_looked {log : Log} {pid : Int32} {a : Attributes} {clock : Int}
    (hLook : .looked ⟨pid, some a, clock⟩ ∈ log) : (pid, a.startTime) ∈ starts log :=
  List.mem_filterMap.mpr ⟨_, hLook, rfl⟩

end Log

namespace Linux

/-- It is known when a system started once anybody has asked. -/
theorem Kernel.fresh?_dated {kernel : Kernel} (hForever : kernel.bootTime.ttl = none) :
    kernel.dated.bootTime.fresh? 0 = some kernel.bootSeconds := by
  cases hMemo : kernel.bootTime.fresh? 0 with
  | some seconds => rw [dated_of_fresh hMemo, hMemo, bootSeconds, hMemo, Option.getD_some]
  | none =>
      rw [dated_of_stale hMemo, bootSeconds, hMemo, Memo.fresh?, Memo.publish, hForever]
      rfl

theorem Kernel.dated_dated {kernel : Kernel} (hForever : kernel.bootTime.ttl = none) :
    kernel.dated.dated = kernel.dated :=
  dated_of_fresh (fresh?_dated hForever)

theorem Kernel.ttl_dated (kernel : Kernel) : kernel.dated.bootTime.ttl = kernel.bootTime.ttl := by
  cases hMemo : kernel.bootTime.fresh? 0 with
  | some seconds => rw [dated_of_fresh hMemo]
  | none => rw [dated_of_stale hMemo, Memo.publish]

/-- From the kernel `base` on nothing has changed but that the start of the system may be known. It is
if any process was told, and then the start of each is that on its status line. -/
structure Vouched (base kernel : Kernel) (starts : List (Int32 × UInt64)) : Prop where
  reached : kernel = base ∨ kernel = base.dated
  start : ∀ pid start, (pid, start) ∈ starts → kernel = base.dated ∧
    ∃ ticks, (base.tree.readings pid).startTicks? = some ticks ∧
      start = base.bootSeconds * 1000 + ticksToMillis base.clockTicks ticks

section Deed

variable {base kernel : Kernel} {starts : List (Int32 × UInt64)}

theorem Vouched.nil (hReached : kernel = base ∨ kernel = base.dated) : Vouched base kernel [] :=
  ⟨hReached, fun _ _ hMem => absurd hMem List.not_mem_nil⟩

theorem Vouched.of_append {more : List (Int32 × UInt64)}
    (hVouched : Vouched base kernel (starts ++ more)) : Vouched base kernel starts :=
  ⟨hVouched.reached, fun pid start hMem => hVouched.start pid start (List.mem_append_left _ hMem)⟩

/-- What is known of the start of the system stays known. -/
theorem Vouched.dated_eq (hForever : base.bootTime.ttl = none) (hVouched : Vouched base kernel starts) :
    kernel.dated = base.dated := by
  rcases hVouched.reached with rfl | rfl
  · rfl
  · exact Kernel.dated_dated hForever

theorem Vouched.tree (hVouched : Vouched base kernel starts) : kernel.tree = base.tree := by
  rcases hVouched.reached with rfl | rfl <;> rfl

theorem Vouched.clockTicks (hVouched : Vouched base kernel starts) :
    kernel.clockTicks = base.clockTicks := by
  rcases hVouched.reached with rfl | rfl <;> rfl

theorem Vouched.bootSeconds (hVouched : Vouched base kernel starts) :
    kernel.bootSeconds = base.bootSeconds := by
  rcases hVouched.reached with rfl | rfl
  · rfl
  · exact Kernel.bootSeconds_dated base

theorem source_batch (pids : List Int32) (release : Release) :
    source.batch pids release = pids.mapM (source.attributes · release) := rfl

/-- To take the attributes of a process adds to what is known no more than its start. -/
theorem attributes_vouched (hForever : base.bootTime.ttl = none) {host : Host Kernel}
    (hVouched : Vouched base host.kernel starts) (pid : Int32) (release : Release) (clock : Int) :
    Vouched base ((source.attributes pid release).on host).2.kernel
      (starts ++ Log.starts (Source.looked pid ((source.attributes pid release).on host).1 clock)) := by
  have hDated := hVouched.dated_eq hForever
  rw [Log.starts_looked]
  rcases attributes_timed pid release host with
    ⟨a, last, hOn, hKernel, hTimed⟩ | ⟨outcome, last, hOn, hNone, hKernel⟩
  · have hLast : last.kernel = base.dated := hKernel.trans hDated
    obtain ⟨ticks, hTicks, hStart⟩ := hTimed.start
    rw [hVouched.tree] at hTicks
    rw [hVouched.bootSeconds, hVouched.clockTicks] at hStart
    rw [hOn]
    refine ⟨.inr hLast, fun other start hMem => ⟨hLast, ?_⟩⟩
    rcases List.mem_append.mp hMem with hBefore | hNow
    · exact (hVouched.start other start hBefore).2
    · obtain ⟨rfl, rfl⟩ := Prod.mk.inj (List.mem_singleton.mp hNow)
      exact ⟨ticks, hTicks, hStart⟩
  · rw [hOn, hNone, Option.map_none, Option.toList_none, List.append_nil]
    rcases hKernel with hKernel | hKernel
    · rwa [hKernel]
    · have hLast : last.kernel = base.dated := hKernel.trans hDated
      exact ⟨.inr hLast, fun other start hMem => ⟨hLast, (hVouched.start other start hMem).2⟩⟩

/-- So it is with a batch, which takes them one after the other. -/
theorem batch_vouched (hForever : base.bootTime.ttl = none) (pids : List Int32) (release : Release)
    (clock : Int) {host : Host Kernel} (hVouched : Vouched base host.kernel starts) :
    Vouched base ((source.batch pids release).on host).2.kernel
      (starts ++
        Log.starts (Source.lookedAll pids ((source.batch pids release).on host).1 clock)) := by
  rw [source_batch]
  induction pids generalizing starts host with
  | nil => simpa [Source.lookedAll, Log.starts] using hVouched
  | cons pid pids ih =>
      have hFirst := attributes_vouched hForever hVouched pid release clock
      rw [List.mapM_cons]
      rcases hOn : (source.attributes pid release).on host with ⟨abort | answer, middle⟩
      all_goals rw [hOn] at hFirst
      · rw [Run.on_bind, hOn]
        exact hFirst
      · have hRest := ih hFirst
        rw [Run.on_bind_of_eq hOn]
        rcases hAll : (pids.mapM (source.attributes · release)).on middle with
          ⟨abort | answers, last⟩
        all_goals rw [hAll] at hRest
        · rw [Run.on_bind, hAll]
          simpa [Source.lookedAll, Log.starts] using hRest.of_append.of_append
        · rw [Run.on_bind_of_eq hAll, Run.on_pure]
          rw [List.append_assoc, ← Log.starts_append] at hRest
          exact hRest

/-- The first host is the second one with a log beside its kernel, and the log is vouched for. -/
def Vouching (base : Kernel) (host : Host (Kernel × Log)) (plain : Host Kernel) : Prop :=
  host.Watches plain ∧ Vouched base plain.kernel (Log.starts host.log)

theorem watched_vouching {α : Type} (entries : Except Abort α → Int → Log) {run : Run Kernel α}
    (hRun : ∀ host starts, Vouched base host.kernel starts →
      Vouched base (run.on host).2.kernel
        (starts ++ Log.starts (entries (run.on host).1 (run.on host).2.clock))) :
    Run.Mirrors (Vouching base) (Run.watched entries run) run := by
  rintro host _ ⟨rfl, hVouched⟩
  refine ⟨rfl, rfl, ?_⟩
  have hAfter := hRun host.unwatched _ hVouched
  rw [← Log.starts_append] at hAfter
  exact hAfter

/-- Of a call that leaves the kernel alone and tells of no process nothing is to be vouched for. -/
theorem watched_vouching_of_kernel {α : Type} (entries : Except Abort α → Int → Log)
    {run : Run Kernel α} (hKernel : ∀ host, (run.on host).2.kernel = host.kernel)
    (hEntries : ∀ outcome clock, Log.starts (entries outcome clock) = []) :
    Run.Mirrors (Vouching base) (Run.watched entries run) run := by
  refine watched_vouching entries fun host starts hVouched => ?_
  rwa [hKernel, hEntries, List.append_nil]

theorem list_kernel (host : Host Kernel) :
    (source.list.outcome.on host).2.kernel = host.kernel := by
  change (listPids.outcome.on host).2.kernel = _
  rw [listPids, Attempt.on_bind_of_eq (Attempt.on_lift_of_eq (Run.on_kernel host))]
  dsimp only
  split <;> rfl

/-- A source under observation is vouched for if each of its calls is. -/
theorem watched_source_vouching {source : Source Kernel}
    (hList : ∀ host, (source.list.outcome.on host).2.kernel = host.kernel)
    (hPid : ∀ host, (source.currentPid.on host).2.kernel = host.kernel)
    (hInvocation : ∀ pid host, ((source.invocation pid).on host).2.kernel = host.kernel)
    (hAttributes : ∀ pid release host starts clock, Vouched base host.kernel starts →
      Vouched base ((source.attributes pid release).on host).2.kernel
        (starts ++ Log.starts (Source.looked pid ((source.attributes pid release).on host).1 clock)))
    (hBatch : ∀ pids release host starts clock, Vouched base host.kernel starts →
      Vouched base ((source.batch pids release).on host).2.kernel
        (starts ++
          Log.starts (Source.lookedAll pids ((source.batch pids release).on host).1 clock))) :
    Source.Mirrors (Vouching base) source.watched source where
  list := watched_vouching_of_kernel (fun _ _ => []) hList fun _ _ => rfl
  currentPid := watched_vouching_of_kernel (fun _ _ => []) hPid fun _ _ => rfl
  attributes pid release := watched_vouching (Source.looked pid) fun host starts =>
    hAttributes pid release host starts _
  batch pids release := watched_vouching (Source.lookedAll pids) fun host starts =>
    hBatch pids release host starts _
  invocation pid := watched_vouching_of_kernel (fun outcome _ => [.asked pid outcome])
    (hInvocation pid) fun _ _ => rfl
  note notice := by
    rintro host _ ⟨rfl, hVouched⟩
    exact ⟨rfl, rfl, hVouched⟩
  clock := by
    rintro host _ ⟨rfl, -⟩
    rfl

theorem source_vouching (hForever : base.bootTime.ttl = none) :
    Source.Mirrors (Vouching base) source.watched source :=
  watched_source_vouching list_kernel (fun _ => rfl) (fun _ _ => rfl)
    (fun pid release _ _ clock hVouched => attributes_vouched hForever hVouched pid release clock)
    fun pids release _ _ clock hVouched => batch_vouched hForever pids release clock hVouched

/-- Whatever a caller does, what it is told of the starts of processes is vouched for. -/
theorem act_vouched {session : Session Kernel} (hSource : session.census.source = source)
    (hForever : session.host.kernel.bootTime.ttl = none) {deed : Session.Deed Kernel}
    (hDeed : ∀ change clock, deed ≠ .meanwhile change clock) :
    Vouched session.host.kernel (session.act deed).2.host.kernel
      (Log.starts (session.watched.act deed.watched).2.host.log) := by
  have hSame : Session.Reflects (Vouching session.host.kernel) session.watched session :=
    ⟨rfl, rfl, .nil (.inl rfl)⟩
  have hCensus : session.watched.census.Mirrors (Vouching session.host.kernel) session.census := by
    refine ⟨?_, rfl, rfl, rfl⟩
    change Source.Mirrors _ session.census.source.watched session.census.source
    rw [hSource]
    exact source_vouching hForever
  cases deed with
  | command command => exact (hSame.command hCensus command).2.host.2
  | list listing slot => exact (hSame.list hCensus listing slot).2.host.2
  | meanwhile change clock => exact absurd rfl (hDeed change clock)

end Deed

/-- The caller of a census that reads a Linux system. In between the files may change in any way; when
the system started is kept for good once it has been read, and nothing but a look reads it. Nor does the
system come to count in other units. -/
structure Lasting (history : Session.History Kernel) : Prop where
  source : history.census.source = source
  forever : history.start.kernel.bootTime.ttl = none
  meanwhile : ∀ n change clock, history.deed n = .meanwhile change clock →
    ∀ kernel, (change kernel).bootTime = kernel.bootTime
  units : ∀ n change clock, history.deed n = .meanwhile change clock →
    ∀ kernel, (change kernel).clockTicks = kernel.clockTicks

/-- In the course of a deed a process is told to have started at this time, and its status line has
these ticks. -/
structure Started (history : Session.History Kernel) (n : Nat) (pid : Int32)
    (ticks start : UInt64) : Prop where
  line : ((history.session n).host.kernel.tree.readings pid).startTicks? = some ticks
  told : (pid, start) ∈ Log.starts (history.log n)

namespace Lasting

variable {history : Session.History Kernel}

/-- A deed either leaves the start of the system as it is, or is a look. -/
theorem step (hLasting : Lasting history) (n : Nat)
    (hForever : (history.session n).host.kernel.bootTime.ttl = none) :
    Vouched (history.session n).host.kernel (history.session (n + 1)).host.kernel
        (Log.starts (history.log n)) ∨
      ((history.session (n + 1)).host.kernel.bootTime = (history.session n).host.kernel.bootTime ∧
        (history.session (n + 1)).host.kernel.clockTicks =
          (history.session n).host.kernel.clockTicks ∧
        history.log n = []) := by
  by_cases hMeanwhile : ∃ change clock, history.deed n = .meanwhile change clock
  case pos =>
    obtain ⟨change, clock, hDeed⟩ := hMeanwhile
    refine .inr ⟨?_, ?_, ?_⟩
    · rw [Session.History.session, hDeed]
      exact hLasting.meanwhile n change clock hDeed _
    · rw [Session.History.session, hDeed]
      exact hLasting.units n change clock hDeed _
    · rw [Session.History.log, hDeed]
      rfl
  case neg =>
    have hSource := (congrArg Census.source (history.census_session n)).trans hLasting.source
    exact .inl (act_vouched hSource hForever fun change clock hDeed =>
      hMeanwhile ⟨change, clock, hDeed⟩)

theorem forever_session (hLasting : Lasting history) (n : Nat) :
    (history.session n).host.kernel.bootTime.ttl = none := by
  induction n with
  | zero => exact hLasting.forever
  | succ n ih =>
      rcases hLasting.step n ih with hVouched | ⟨hSame, -⟩
      · rcases hVouched.reached with hKernel | hKernel
        · rw [hKernel, ih]
        · rw [hKernel, Kernel.ttl_dated, ih]
      · rw [hSame, ih]

theorem clockTicks_session (hLasting : Lasting history) (n : Nat) :
    (history.session n).host.kernel.clockTicks = history.start.kernel.clockTicks := by
  induction n with
  | zero => rfl
  | succ n ih =>
      rcases hLasting.step n (hLasting.forever_session n) with hVouched | ⟨-, hSame, -⟩
      · exact hVouched.clockTicks.trans ih
      · exact hSame.trans ih

/-- When the system started is never read again. -/
theorem known_of_le (hLasting : Lasting history) {n m : Nat} (hLe : n ≤ m) {seconds : UInt64}
    (hKnown : (history.session n).host.kernel.bootTime.fresh? 0 = some seconds) :
    (history.session m).host.kernel.bootTime.fresh? 0 = some seconds := by
  induction m, hLe using Nat.le_induction with
  | base => exact hKnown
  | succ m _ ih =>
      rcases hLasting.step m (hLasting.forever_session m) with hVouched | ⟨hSame, -⟩
      · rcases hVouched.reached with hKernel | hKernel
        · rw [hKernel, ih]
        · rw [hKernel, Kernel.dated_of_fresh ih, ih]
      · rw [hSame, ih]

variable {n m : Nat} {pid pid' : Int32} {ticks ticks' start start' : UInt64}

theorem start_eq (hLasting : Lasting history) (hStarted : Started history n pid ticks start) :
    start = (history.session n).host.kernel.bootSeconds * 1000 +
        ticksToMillis history.start.kernel.clockTicks ticks ∧
      (history.session (n + 1)).host.kernel.bootTime.fresh? 0 =
        some (history.session n).host.kernel.bootSeconds := by
  have hForever := hLasting.forever_session n
  rcases hLasting.step n hForever with hVouched | ⟨-, -, hLog⟩
  · obtain ⟨hKernel, other, hTicks, hStart⟩ := hVouched.start pid start hStarted.told
    obtain rfl := Option.some.inj (hTicks.symm.trans hStarted.line)
    rw [hLasting.clockTicks_session] at hStart
    exact ⟨hStart, hKernel ▸ Kernel.fresh?_dated hForever⟩
  · have hTold := hStarted.told
    rw [hLog] at hTold
    cases hTold

theorem bootSeconds_of_lt (hLasting : Lasting history) (hStarted : Started history n pid ticks start)
    (hLt : n < m) :
    (history.session m).host.kernel.bootSeconds = (history.session n).host.kernel.bootSeconds := by
  rw [Kernel.bootSeconds, hLasting.known_of_le hLt (hLasting.start_eq hStarted).2, Option.getD_some]

/-- All looks reckon with the same start of the system. -/
theorem bootSeconds_eq (hLasting : Lasting history) (hStarted : Started history n pid ticks start)
    (hOther : Started history m pid' ticks' start') :
    (history.session m).host.kernel.bootSeconds = (history.session n).host.kernel.bootSeconds := by
  rcases Nat.lt_trichotomy n m with hLt | rfl | hGt
  · exact hLasting.bootSeconds_of_lt hStarted hLt
  · rfl
  · exact (hLasting.bootSeconds_of_lt hOther hGt).symm

theorem exists_ticks (hLasting : Lasting history) (hTold : (pid, start) ∈ Log.starts (history.log n)) :
    ∃ ticks, Started history n pid ticks start := by
  rcases hLasting.step n (hLasting.forever_session n) with hVouched | ⟨-, -, hLog⟩
  · obtain ⟨-, ticks, hTicks, -⟩ := hVouched.start pid start hTold
    exact ⟨ticks, hTicks, hTold⟩
  · rw [hLog] at hTold
    cases hTold

theorem exists_ticks_of_taken (hLasting : Lasting history) {slot : Nat} {snapshot : Snapshot}
    (hTaken : history.taken n slot = some snapshot) (hValid : snapshot.isValid = true) :
    ∃ ticks, Started history n snapshot.pid ticks snapshot.attributes.startTime := by
  obtain ⟨-, -, -, ⟨pid, answer, clock⟩, release, hLook, rfl⟩ := (history.fate n slot).of_taken hTaken
  rcases (Look.shownBy_snapshot ⟨pid, answer, clock⟩ release).attributes with
    ⟨-, hInvalid, -⟩ | ⟨-, -, a, upTime, rfl, hShown, -⟩
  · simp [Snapshot.isValid, hInvalid] at hValid
  · rw [hShown]
    obtain ⟨ticks, hStarted⟩ := hLasting.exists_ticks (Log.mem_starts_of_looked hLook)
    exact ⟨ticks, hStarted⟩

theorem start_le (hLasting : Lasting history) (hStarted : Started history n pid ticks start)
    (hOther : Started history m pid' ticks' start') (hTicks : ticks ≤ ticks')
    (hFits : (history.session m).host.kernel.bootSeconds.toNat * 1000 +
      (ticksToMillis (history.session m).host.kernel.clockTicks ticks').toNat < UInt64.size) :
    start ≤ start' := by
  rw [hLasting.clockTicks_session] at hFits
  have hMillis := ticksToMillis_le history.start.kernel.clockTicks hTicks
  rw [(hLasting.start_eq hStarted).1, (hLasting.start_eq hOther).1,
    ← hLasting.bootSeconds_eq hStarted hOther, UInt64.le_iff_toNat_le, toNat_startTime hFits,
    toNat_startTime (by omega)]
  omega

end Lasting

/-- What may be relied on about the starts of processes in a history. -/
structure Identifying (history : Session.History Kernel) : Prop where
  /-- Who is told of has a start on its status line. -/
  told {n : Nat} {pid : Int32} {start : UInt64} : (pid, start) ∈ Log.starts (history.log n) →
    ∃ ticks, Started history n pid ticks start
  /-- The start that a snapshot shows is the one that was told when it was taken. -/
  shown {n slot : Nat} {snapshot : Snapshot} : history.taken n slot = some snapshot →
    snapshot.isValid = true →
    ∃ ticks, Started history n snapshot.pid ticks snapshot.attributes.startTime
  /-- With the same ticks a process has the same start, at whatever time. -/
  same {n m : Nat} {pid pid' : Int32} {ticks start start' : UInt64} :
    Started history n pid ticks start → Started history m pid' ticks start' → start = start'
  /-- With more ticks a process has no earlier start, if this is a number of 64 bits. -/
  ordered {n m : Nat} {pid pid' : Int32} {ticks ticks' start start' : UInt64} :
    Started history n pid ticks start → Started history m pid' ticks' start' → ticks ≤ ticks' →
    (history.session m).host.kernel.bootSeconds.toNat * 1000 +
      (ticksToMillis (history.session m).host.kernel.clockTicks ticks').toNat < UInt64.size →
    start ≤ start'

/-- However the files change between two looks, the start of a process identifies it as well as the
ticks on its status line do. -/
theorem starts_identify {history : Session.History Kernel} (hLasting : Lasting history) :
    Identifying history where
  told := hLasting.exists_ticks
  shown := hLasting.exists_ticks_of_taken
  same hStarted hOther := by
    rw [(hLasting.start_eq hStarted).1, (hLasting.start_eq hOther).1,
      hLasting.bootSeconds_eq hStarted hOther]
  ordered := hLasting.start_le

/-- The files of a system that says it started at this second, with these ticks on the status lines of
the processes 7 and 8. -/
def driftingTree (btime ticks ticks' : String) : Tree :=
  ⟨[([Text.Utf8.bytes "stat"], .file (Text.Utf8.bytes "btime " ++ Text.Utf8.bytes btime)),
    ([[0x37]], .directory),
    ([[0x37], Text.Utf8.bytes "stat"], .file (line ticks)),
    ([[0x38]], .directory),
    ([[0x38], Text.Utf8.bytes "stat"], .file (line ticks'))]⟩
where
  line (ticks : String) : Bytes :=
    Text.Utf8.bytes "7 () S 1 0 0 0 0 0 0 0 0 0 0 0 0 0 0 0 1 0 " ++ Text.Utf8.bytes ticks ++
      Text.Utf8.bytes " 0 0"

def drifting : Session.History Kernel where
  census := { source, release := ⟨6, 8⟩, settings := .default, available := ⟨1, Nat.one_pos⟩ }
  start :=
    { crookedHost with kernel := { crookedHost.kernel with tree := driftingTree "1000" "150" "100" } }
  deed
    | 0 => .command (.get 7 0)
    | 1 => .meanwhile (fun kernel => { kernel with tree := driftingTree "5000" "1" "150" }) (-3)
    | 2 => .list (.byPids [8]) 1
    | 3 => .meanwhile (fun kernel => { kernel with tree := ⟨[]⟩ }) 10
    | _ => .command (.refresh 0)

theorem lasting_drifting : Lasting drifting where
  source := rfl
  forever := rfl
  meanwhile n change clock hDeed kernel := by
    match n, hDeed with
    | 1, hDeed | 3, hDeed =>
        cases hDeed
        rfl
  units n change clock hDeed kernel := by
    match n, hDeed with
    | 1, hDeed | 3, hDeed =>
        cases hDeed
        rfl

/-- The second process is told to have started when the first one did, though the files tell another
start of the system by then. -/
theorem starts_identify_drifting :
    Lasting drifting ∧ Identifying drifting ∧ Started drifting 0 7 150 1001500 ∧
      Started drifting 2 8 150 1001500 ∧
      (drifting.session 2).host.kernel.tree.bootSeconds = 5000 := by
  have hTree : (drifting.session 2).host.kernel.tree = driftingTree "5000" "1" "150" := rfl
  have hLine : ((driftingTree "1000" "150" "100").readings 7).startTicks? = some 150 := by rfl
  have hLine' : ((driftingTree "5000" "1" "150").readings 8).startTicks? = some 150 := by rfl
  have hTold : Log.starts (drifting.log 0) = [(7, 1001500)] := by decide +kernel
  have hTold' : Log.starts (drifting.log 2) = [(8, 1001500)] := by decide +kernel
  have hBoot : (driftingTree "5000" "1" "150").bootSeconds = 5000 := by rfl
  exact ⟨lasting_drifting, starts_identify lasting_drifting, ⟨hLine, by simp [hTold]⟩,
    ⟨hTree ▸ hLine', by simp [hTold']⟩, hTree ▸ hBoot⟩

end Linux

end ProcessCensus
