import ProcessCensus.Census.Session
import ProcessCensus.Proofs.Run

/-!
A source under observation. It answers as it would otherwise, and writes down what it was asked and
what it answered. The log stands beside the kernel, where nothing that is computed looks at it.
-/

namespace ProcessCensus

/-- An answered look at a process: whose attributes were asked for, what was answered, and what the
wall clock showed then. -/
structure Look where
  pid : Int32
  answer : Option Attributes
  clock : Int

/-- What a source was asked and what it answered. -/
inductive Exchange where
  | looked (look : Look)
  /-- Arguments and environment were asked for, perhaps in vain. -/
  | asked (pid : Int32) (outcome : Except Abort Invocation)

/-- What a source was asked, in order. -/
abbrev Log := List Exchange

variable {κ α β : Type}

namespace Host

/-- The host with a log beside its kernel. -/
def watched (host : Host κ) (log : Log) : Host (κ × Log) where
  kernel := (host.kernel, log)
  clock := host.clock
  journal := host.journal

/-- The host without the log. -/
def unwatched (host : Host (κ × Log)) : Host κ where
  kernel := host.kernel.1
  clock := host.clock
  journal := host.journal

/-- The log beside the kernel. -/
def log (host : Host (κ × Log)) : Log :=
  host.kernel.2

@[simp] theorem unwatched_watched (host : Host κ) (log : Log) :
    (host.watched log).unwatched = host :=
  rfl

@[simp] theorem log_watched (host : Host κ) (log : Log) : (host.watched log).log = log := rfl

@[simp] theorem clock_watched (host : Host κ) (log : Log) : (host.watched log).clock = host.clock :=
  rfl

/-- The first host is the second one with a log beside its kernel. -/
def Watches (host : Host (κ × Log)) (plain : Host κ) : Prop :=
  host.unwatched = plain

end Host

namespace Run

/-- The computation under observation: `entries` tells what is written down for its outcome and for
the time at its end. -/
def watched (entries : Except Abort α → Int → Log) (run : Run κ α) : Run (κ × Log) α :=
  fun host =>
    let (outcome, after) := run.on host.unwatched
    (outcome, after.watched (host.log ++ entries outcome after.clock))

theorem on_watched {entries : Except Abort α → Int → Log} {run : Run κ α}
    {host : Host (κ × Log)} {outcome : Except Abort α} {after : Host κ}
    (hRun : run.on host.unwatched = (outcome, after)) :
    (watched entries run).on host =
      (outcome, after.watched (host.log ++ entries outcome after.clock)) := by
  change (let (outcome, after) := run.on host.unwatched
    (outcome, after.watched (host.log ++ entries outcome after.clock))) = _
  rw [hRun]

/-- What is written down makes no difference to the computation. -/
theorem watched_mirrors (entries : Except Abort α → Int → Log) (run : Run κ α) :
    Mirrors Host.Watches (watched entries run) run := by
  rintro host _ rfl
  exact ⟨rfl, rfl⟩

/-- From this host the computation does nothing but look at processes, and the log bears out what it
results in. -/
def LooksFrom (host : Host (κ × Log)) (run : Run (κ × Log) α) (holds : Log → α → Prop) : Prop :=
  (∃ looks : List Look, (run.on host).2.log = host.log ++ looks.map .looked) ∧
    ∀ value, (run.on host).1 = .ok value → holds (run.on host).2.log value

/-- The computation does nothing but look at processes, and the log bears out what it results in. -/
def Looks (holds : Log → α → Prop) (run : Run (κ × Log) α) : Prop :=
  ∀ host, LooksFrom host run holds

theorem LooksFrom.pure {host : Host (κ × Log)} {holds : Log → α → Prop} {value : α}
    (hValue : holds host.log value) : LooksFrom host (pure value) holds :=
  ⟨⟨[], (List.append_nil _).symm⟩, fun _ hOutcome => Except.ok.inj hOutcome ▸ hValue⟩

theorem LooksFrom.bind {host : Host (κ × Log)} {run : Run (κ × Log) α}
    {next : α → Run (κ × Log) β} {holds : Log → α → Prop} {holds' : Log → β → Prop}
    (hRun : LooksFrom host run holds)
    (hNext : ∀ value after, holds after.log value → LooksFrom after (next value) holds') :
    LooksFrom host (run >>= next) holds' := by
  obtain ⟨⟨looks, hLog⟩, hHolds⟩ := hRun
  rw [LooksFrom, on_bind]
  rcases hOn : run.on host with ⟨outcome, after⟩
  rw [hOn] at hLog hHolds
  cases outcome with
  | error abort => exact ⟨⟨looks, hLog⟩, nofun⟩
  | ok value =>
      obtain ⟨⟨others, hRest⟩, hResult⟩ := hNext value after (hHolds value rfl)
      refine ⟨⟨looks ++ others, ?_⟩, hResult⟩
      rw [List.map_append, ← List.append_assoc, ← hLog]
      exact hRest

theorem Looks.bind {run : Run (κ × Log) α} {next : α → Run (κ × Log) β} {holds : Log → α → Prop}
    {holds' : Log → β → Prop} (hRun : Looks holds run)
    (hNext : ∀ value after, holds after.log value → LooksFrom after (next value) holds') :
    Looks holds' (run >>= next) :=
  fun host => (hRun host).bind hNext

theorem Looks.map {run : Run (κ × Log) α} {holds : Log → α → Prop} {holds' : Log → β → Prop}
    {f : α → β} (hRun : Looks holds run)
    (hMap : ∀ log value, holds log value → holds' log (f value)) : Looks holds' (f <$> run) := by
  rw [map_eq_pure_bind]
  exact hRun.bind fun value after hValue => .pure (hMap after.log value hValue)

theorem Looks.settle {run : Run (κ × Log) α} {holds : Log → α → Prop} (hRun : Looks holds run) :
    Looks (fun log outcome => ∀ value, outcome = .ok value → holds log value) run.settle := by
  intro host
  obtain ⟨hLog, hHolds⟩ := hRun host
  refine ⟨hLog, fun outcome hOutcome => ?_⟩
  rw [on_settle] at hOutcome ⊢
  exact Except.ok.inj hOutcome ▸ hHolds

/-- What has been borne out stays so when more is seen. -/
theorem Looks.mapM {f : α → Run (κ × Log) β} {holds : Log → β → Prop}
    (hMore : ∀ log looks value, holds log value → holds (log ++ List.map .looked looks) value)
    (hEach : ∀ x, Looks holds (f x)) (xs : List α) :
    Looks (fun log ys => ∀ y ∈ ys, holds log y) (xs.mapM f) := by
  induction xs with
  | nil => exact fun host => .pure nofun
  | cons x xs ih =>
      rw [List.mapM_cons]
      refine (hEach x).bind fun y middle hY => ?_
      obtain ⟨⟨looks, hLog⟩, hRest⟩ := ih middle
      have hBoth : LooksFrom middle (xs.mapM f) fun log ys => ∀ z ∈ y :: ys, holds log z := by
        refine ⟨⟨looks, hLog⟩, fun ys hYs => List.forall_mem_cons.mpr ⟨?_, hRest ys hYs⟩⟩
        rw [hLog]
        exact hMore _ _ _ hY
      exact hBoth.bind fun ys after hYs => .pure hYs

end Run

namespace Source

/-- What is written down about the attributes of one process. -/
def looked (pid : Int32) (outcome : Except Abort (Option Attributes)) (clock : Int) : Log :=
  match outcome with
  | .ok answer => [.looked ⟨pid, answer, clock⟩]
  | .error _ => []

/-- What is written down about the attributes of several processes. -/
def lookedAll (pids : List Int32) (outcome : Except Abort (List (Option Attributes)))
    (clock : Int) : Log :=
  match outcome with
  | .ok answers => (pids.zip answers).map fun (pid, answer) => .looked ⟨pid, answer, clock⟩
  | .error _ => []

/-- The source under observation. -/
def watched (source : Source κ) : Source (κ × Log) where
  platform := source.platform
  list := ExceptT.mk (Run.watched (fun _ _ => []) source.list.outcome)
  currentPid := Run.watched (fun _ _ => []) source.currentPid
  attributes pid release := Run.watched (looked pid) (source.attributes pid release)
  batch pids release := Run.watched (lookedAll pids) (source.batch pids release)
  invocation pid := Run.watched (fun outcome _ => [.asked pid outcome]) (source.invocation pid)

end Source

/-- The census with its source under observation. -/
def Census.watched (census : Census κ) : Census (κ × Log) where
  source := census.source.watched
  release := census.release
  settings := census.settings
  available := census.available

section Mirrors

open Run

variable {κ' : Type} {linked : Host κ → Host κ' → Prop}

/-- Each call to the first source mirrors that to the second one, and so do notices and the clock. -/
structure Source.Mirrors (linked : Host κ → Host κ' → Prop) (first : Source κ) (second : Source κ') :
    Prop where
  list : Run.Mirrors linked first.list.outcome second.list.outcome
  currentPid : Run.Mirrors linked first.currentPid second.currentPid
  attributes : ∀ pid release,
    Run.Mirrors linked (first.attributes pid release) (second.attributes pid release)
  batch : ∀ pids release, Run.Mirrors linked (first.batch pids release) (second.batch pids release)
  invocation : ∀ pid, Run.Mirrors linked (first.invocation pid) (second.invocation pid)
  note : ∀ notice, Run.Mirrors linked (Run.note notice) (Run.note notice)
  clock : ∀ host host', linked host host' → host.clock = host'.clock

/-- The censuses differ in no more than their sources, and these mirror each other. -/
structure Census.Mirrors (linked : Host κ → Host κ' → Prop) (first : Census κ) (second : Census κ') :
    Prop where
  source : Source.Mirrors linked first.source second.source
  release : first.release = second.release
  settings : first.settings = second.settings
  available : first.available = second.available

theorem Source.watched_mirrors (source : Source κ) :
    Source.Mirrors Host.Watches source.watched source where
  list := Run.watched_mirrors (fun _ _ => []) _
  currentPid := Run.watched_mirrors (fun _ _ => []) _
  attributes pid _ := Run.watched_mirrors (Source.looked pid) _
  batch pids _ := Run.watched_mirrors (Source.lookedAll pids) _
  invocation pid := Run.watched_mirrors (fun outcome _ => [.asked pid outcome]) _
  note notice := by
    rintro host _ rfl
    exact ⟨rfl, rfl⟩
  clock := by
    rintro host _ rfl
    rfl

theorem Census.watched_mirrors (census : Census κ) :
    Census.Mirrors Host.Watches census.watched census :=
  ⟨census.source.watched_mirrors, rfl, rfl, rfl⟩

variable {source : Source κ} {source' : Source κ'} {census : Census κ} {census' : Census κ'}

theorem Snapshot.ofAnswer_mirrors
    (hClock : ∀ host host', linked host host' → host.clock = host'.clock) (pid : Int32)
    (release : Release) (answer : Option Attributes) :
    Run.Mirrors linked (ofAnswer pid release answer) (ofAnswer pid release answer) :=
  (Mirrors.now hClock).bind fun _ => .pure _

theorem Snapshot.probe_mirrors (hSource : source.Mirrors linked source') (pid : Int32)
    (release : Release) :
    Run.Mirrors linked (probe source pid release) (probe source' pid release) :=
  (hSource.attributes pid release).bind (ofAnswer_mirrors hSource.clock pid release)

theorem Snapshot.readInvocation_mirrors (hSource : source.Mirrors linked source')
    (snapshot : Snapshot) :
    Run.Mirrors linked (snapshot.readInvocation source) (snapshot.readInvocation source') := by
  rw [readInvocation, readInvocation]
  split
  · exact .pure _
  · exact (hSource.invocation snapshot.pid).bind fun _ => .pure _

theorem Snapshot.readCommandLine_mirrors (hSource : source.Mirrors linked source')
    (snapshot : Snapshot) :
    Run.Mirrors linked (snapshot.readCommandLine source) (snapshot.readCommandLine source') := by
  rw [readCommandLine, readCommandLine]
  split
  · exact .pure _
  · exact (readInvocation_mirrors hSource snapshot).bind fun _ => .pure _

namespace Census

theorem get_mirrors (hCensus : census.Mirrors linked census') (pid : Int32) :
    Run.Mirrors linked (census.get pid) (census'.get pid) := by
  rw [get, get, hCensus.release]
  exact (Snapshot.probe_mirrors hCensus.source pid _).bind fun _ => .pure _

theorem currentProcess_mirrors (hCensus : census.Mirrors linked census') :
    Run.Mirrors linked census.currentProcess census'.currentProcess :=
  hCensus.source.currentPid.bind (get_mirrors hCensus)

theorem resolveShare_mirrors (hCensus : census.Mirrors linked census') (pids : List Int32) :
    Run.Mirrors linked (census.resolveShare pids) (census'.resolveShare pids) := by
  rw [resolveShare, resolveShare, hCensus.release]
  refine (hCensus.source.batch pids _).bind fun answers => ?_
  exact (Mirrors.mapM (fun _ => Snapshot.ofAnswer_mirrors hCensus.source.clock _ _ _) _).bind
    fun _ => .pure _

theorem resolve_mirrors (hCensus : census.Mirrors linked census') (pids : List Int32) :
    Run.Mirrors linked (census.resolve pids) (census'.resolve pids) := by
  have hWorkers : census.workers = census'.workers := by
    rw [workers, workers, hCensus.settings, hCensus.available]
  rw [resolve, resolve, hWorkers]
  split
  · exact resolveShare_mirrors hCensus pids
  · exact (Mirrors.mapM (fun share => (resolveShare_mirrors hCensus share).settle) _).bind
      fun shares => .known (joinShares shares)

theorem everyProcess_mirrors (hCensus : census.Mirrors linked census') :
    Run.Mirrors linked census.everyProcess census'.everyProcess := by
  refine hCensus.source.list.bind fun outcome => ?_
  cases outcome with
  | ok pids => exact resolve_mirrors hCensus pids
  | error failure => exact (hCensus.source.note _).bind fun _ => .pure []

end Census

end Mirrors

end ProcessCensus
