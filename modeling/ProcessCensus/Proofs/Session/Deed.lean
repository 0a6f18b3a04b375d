import ProcessCensus.Proofs.Census.Descent
import ProcessCensus.Proofs.Census.Listing
import ProcessCensus.Proofs.Census.Query
import ProcessCensus.Proofs.Session.Watch
import Mathlib.Logic.Function.Basic

/-!
What a caller can do: commands, and listings of which all snapshots are kept. In between the system
goes on and the wall clock moves, in whatever direction. A listing tells what was seen at the looks it
took, however many workers share it.
-/

namespace ProcessCensus

variable {κ : Type}

/-- The snapshot that a look gives. -/
def Look.snapshot (look : Look) (release : Release) : Snapshot :=
  .taken release look.clock look.pid look.answer

/-- The process was there at one of the looks in the log, and this is what was seen of it. -/
def Snapshot.SeenIn (release : Release) (log : Log) (snapshot : Snapshot) : Prop :=
  snapshot.isValid = true ∧ ∃ look, .looked look ∈ log ∧ snapshot = look.snapshot release

theorem Family.mem_of_mem_children {parent : Int32} {processes : List Snapshot} {snapshot : Snapshot}
    (hMem : snapshot ∈ children parent processes) : snapshot ∈ processes :=
  List.mem_of_mem_filter hMem

theorem Family.mem_of_mem_descendants {root : Int32} {processes : List Snapshot}
    {snapshot : Snapshot} (hMem : snapshot ∈ descendants root processes) : snapshot ∈ processes :=
  List.mem_of_mem_filter (mem_pool_of_mem_below hMem)

theorem Snapshot.ofAnswer_on (pid : Int32) (release : Release) (answer : Option Attributes)
    (host : Host κ) :
    (ofAnswer pid release answer).on host = (.ok (taken release host.clock pid answer), host) := rfl

namespace Census

theorem mem_share_of_joinShares {shares : List (Except Abort (List Snapshot))}
    {snapshots : List Snapshot} (hJoin : joinShares shares = .ok snapshots) {snapshot : Snapshot}
    (hMem : snapshot ∈ snapshots) : ∃ share, .ok share ∈ shares ∧ snapshot ∈ share := by
  induction shares generalizing snapshots with
  | nil =>
      cases hJoin
      cases hMem
  | cons share shares ih =>
      cases share with
      | error abort => cases hJoin
      | ok share =>
          rw [joinShares] at hJoin
          cases hRest : joinShares shares with
          | error abort =>
              rw [hRest] at hJoin
              cases hJoin
          | ok rest =>
              rw [hRest] at hJoin
              cases hJoin
              rcases List.mem_append.mp hMem with hFirst | hLater
              · exact ⟨share, List.mem_cons_self, hFirst⟩
              · obtain ⟨other, hOther, hSnapshot⟩ := ih hRest hLater
                exact ⟨other, List.mem_cons_of_mem _ hOther, hSnapshot⟩

theorem ofAnswers_on (release : Release) (answers : List (Int32 × Option Attributes))
    (host : Host κ) :
    (answers.mapM fun (pid, answer) => Snapshot.ofAnswer pid release answer).on host =
      (.ok (answers.map fun (pid, answer) => .taken release host.clock pid answer), host) := by
  induction answers with
  | nil => rfl
  | cons answer answers ih =>
      rw [List.mapM_cons, Run.on_bind_of_eq (Snapshot.ofAnswer_on _ _ _ _), Run.on_bind_of_eq ih]
      rfl

theorem resolveShare_looks (census : Census κ) (pids : List Int32) :
    Run.Looks (fun log snapshots => ∀ s ∈ snapshots, s.SeenIn census.release log)
      (census.watched.resolveShare pids) := by
  intro host
  rcases hBatch : (census.source.batch pids census.release).on host.unwatched with ⟨outcome, after⟩
  have hWatched : (census.watched.source.batch pids census.watched.release).on host =
      (outcome, after.watched (host.log ++ Source.lookedAll pids outcome after.clock)) :=
    Run.on_watched hBatch
  rw [Run.LooksFrom, resolveShare, Run.on_bind, hWatched]
  cases outcome with
  | error abort => exact ⟨⟨[], rfl⟩, fun _ hOk => by cases hOk⟩
  | ok answers =>
      dsimp only
      rw [Run.on_bind_of_eq (ofAnswers_on _ _ _)]
      refine ⟨⟨(pids.zip answers).map fun pair => ⟨pair.1, pair.2, after.clock⟩, ?_⟩, ?_⟩
      · simp [Source.lookedAll, Function.comp_def]
      · intro snapshots hOutcome s hMem
        cases hOutcome
        obtain ⟨hTaken, hValid⟩ := List.mem_filter.mp hMem
        obtain ⟨⟨pid, answer⟩, hAnswer, rfl⟩ := List.mem_map.mp hTaken
        refine ⟨hValid, ⟨pid, answer, after.clock⟩, ?_, rfl⟩
        refine List.mem_append_right _ (List.mem_map.mpr ⟨(pid, answer), hAnswer, rfl⟩)

theorem resolve_looks (census : Census κ) (pids : List Int32) :
    Run.Looks (fun log snapshots => ∀ s ∈ snapshots, s.SeenIn census.release log)
      (census.watched.resolve pids) := by
  rw [resolve]
  split
  · exact resolveShare_looks census pids
  · refine (Run.Looks.mapM ?_ (fun share => (resolveShare_looks census share).settle) _).bind
      fun shares after hShares => ⟨⟨[], (List.append_nil _).symm⟩, fun snapshots hJoin s hMem => ?_⟩
    · intro log looks outcome hHolds value hValue s hMem
      obtain ⟨hValid, look, hLook, hTaken⟩ := hHolds value hValue s hMem
      exact ⟨hValid, look, List.mem_append_left _ hLook, hTaken⟩
    · obtain ⟨share, hShare, hSnapshot⟩ := mem_share_of_joinShares hJoin hMem
      exact hShares _ hShare share rfl s hSnapshot

theorem everyProcess_looks (census : Census κ) :
    Run.Looks (fun log snapshots => ∀ s ∈ snapshots, s.SeenIn census.release log)
      census.watched.everyProcess := by
  have hList : Run.Looks (fun _ _ => True) census.watched.source.list.outcome :=
    fun host => ⟨⟨[], rfl⟩, fun _ _ => trivial⟩
  refine hList.bind fun outcome after _ => ?_
  cases outcome with
  | ok pids => exact resolve_looks census pids after
  | error failure => exact ⟨⟨[], (List.append_nil _).symm⟩, fun snapshots hEmpty s hMem => by
      cases hEmpty
      cases hMem⟩

end Census

namespace Session

/-- The ways to list processes. -/
inductive Listing where
  | processes (query : Query)
  | byPids (pids : List Int32)
  | children (parent : Int32) (query : Query)
  | descendants (root : Int32) (query : Query)

/-- Lists processes. -/
def Listing.run (census : Census κ) : Listing → Run κ (List Snapshot)
  | .processes query => census.processes query
  | .byPids pids => census.processesByPids pids
  | .children parent query => census.children parent query
  | .descendants root query => census.descendants root query

/-- Whatever the number of workers and whatever is asked for, what a listing tells was seen at one of
the looks it took. -/
theorem Listing.run_looks (census : Census κ) (listing : Listing) :
    Run.Looks (fun log snapshots => ∀ s ∈ snapshots, s.SeenIn census.release log)
      (listing.run census.watched) := by
  have hEvery := census.everyProcess_looks
  cases listing with
  | processes query =>
      exact hEvery.bind fun every after hSeen => .pure fun s hMem =>
        hSeen s (Query.mem_of_mem_apply hMem)
  | byPids pids => exact census.resolve_looks _
  | children parent query =>
      exact hEvery.bind fun every after hSeen => .pure fun s hMem =>
        hSeen s (Family.mem_of_mem_children (Query.mem_of_mem_apply hMem))
  | descendants root query =>
      exact hEvery.bind fun every after hSeen => .pure fun s hMem =>
        hSeen s (Family.mem_of_mem_descendants (Query.mem_of_mem_apply hMem))

/-- What a caller does, or what happens in the meantime. -/
inductive Deed (κ : Type) where
  | command (command : Command)
  /-- Lists processes and keeps all of them, in this slot and those that follow. -/
  | list (listing : Listing) (slot : Nat)
  /-- The system goes on, and the wall clock comes to show any time. -/
  | meanwhile (change : κ → κ) (clock : Int)

/-- What a caller is told. -/
inductive Reply where
  | answer (answer : Answer)
  | listed (snapshots : List Snapshot)

/-- The session with snapshots kept in a slot and those that follow. -/
def keepAll (session : Session κ) (slot : Nat) : List Snapshot → Session κ
  | [] => session
  | snapshot :: rest => (session.keep slot snapshot).keepAll (slot + 1) rest

/-- The reply to a deed, and the session after it. -/
def act (session : Session κ) : Deed κ → Except Abort Reply × Session κ
  | .command command =>
    let (outcome, session) := session.command command
    (outcome.map .answer, session)
  | .list listing slot =>
    match session.run (listing.run session.census) with
    | (.ok snapshots, session) => (.ok (.listed snapshots), session.keepAll slot snapshots)
    | (.error abort, session) => (.error abort, session)
  | .meanwhile change clock =>
    let kernel := change session.host.kernel
    (.ok (.answer .done), { session with host := { session.host with kernel, clock } })

theorem slot?_keep (session : Session κ) (slot : Nat) (snapshot : Snapshot) :
    (session.keep slot snapshot).slot? = Function.update session.slot? slot (some snapshot) := by
  funext other
  rw [Function.update_apply, slot?, keep, List.lookup_cons]
  by_cases hOther : other = slot
  case pos => simp [hOther]
  case neg =>
    have hBeq : (other == slot) = false := beq_false_of_ne hOther
    simp only [hBeq, if_neg hOther, slot?]
    generalize session.slots = slots
    induction slots with
    | nil => rfl
    | cons held slots ih =>
        obtain ⟨key, kept⟩ := held
        rw [List.filter_cons]
        split
        case isTrue => simp only [List.lookup_cons, ih]
        case isFalse hKey =>
          have hSlot : key = slot := by simpa using hKey
          have hKey : (other == key) = false := hSlot ▸ hBeq
          rw [ih, List.lookup_cons, hKey]

/-- What is kept in the slots when these snapshots are kept in a slot and those that follow. -/
def spread (held : Nat → Option Snapshot) (first : Nat) (snapshots : List Snapshot) (slot : Nat) :
    Option Snapshot :=
  if first ≤ slot then snapshots[slot - first]?.or (held slot) else held slot

@[simp] theorem host_keepAll (session : Session κ) (first : Nat) (snapshots : List Snapshot) :
    (session.keepAll first snapshots).host = session.host := by
  induction snapshots generalizing session first with
  | nil => rfl
  | cons snapshot snapshots ih => exact ih (session.keep first snapshot) (first + 1)

theorem slot?_keepAll (session : Session κ) (first : Nat) (snapshots : List Snapshot) :
    (session.keepAll first snapshots).slot? = spread session.slot? first snapshots := by
  induction snapshots generalizing session first with
  | nil =>
      funext slot
      simp [keepAll, spread]
  | cons snapshot snapshots ih =>
      funext slot
      rw [keepAll, ih, spread, spread, slot?_keep]
      rcases Nat.lt_trichotomy slot first with hLt | rfl | hGt
      · rw [if_neg (by omega), if_neg (by omega), Function.update_of_ne (by omega)]
      · rw [if_neg (by omega), if_pos (Nat.le_refl _), Function.update_self, Nat.sub_self]
        rfl
      · rw [if_pos (by omega), if_pos (by omega), Function.update_of_ne (by omega),
          show slot - first = slot - (first + 1) + 1 by omega, List.getElem?_cons_succ]

/-- The deed as it is done under observation. -/
def Deed.watched : Deed κ → Deed (κ × Log)
  | .command task => .command task
  | .list listing slot => .list listing slot
  | .meanwhile change clock => .meanwhile (Prod.map change id) clock

/-- The session under observation, with nothing written down yet. -/
def watched (session : Session κ) : Session (κ × Log) where
  census := session.census.watched
  host := session.host.watched []
  slots := session.slots

section Mirrors

variable {κ' : Type} {linked : Host κ → Host κ' → Prop} {census : Census κ} {census' : Census κ'}

theorem Listing.run_mirrors (hCensus : census.Mirrors linked census') (listing : Listing) :
    Run.Mirrors linked (listing.run census) (listing.run census') := by
  have hEvery := Census.everyProcess_mirrors hCensus
  cases listing with
  | processes => exact hEvery.bind fun _ => .pure _
  | byPids => exact Census.resolve_mirrors hCensus _
  | children => exact hEvery.bind fun _ => .pure _
  | descendants => exact hEvery.bind fun _ => .pure _

theorem Command.onSlot_mirrors {source : Source κ} {source' : Source κ'}
    (hSource : source.Mirrors linked source') (snapshot : Snapshot) (command : Command) :
    Run.Mirrors linked (command.onSlot source snapshot) (command.onSlot source' snapshot) := by
  cases command with
  | refresh =>
      exact (Snapshot.probe_mirrors hSource snapshot.pid snapshot.release).bind fun _ => .pure _
  | arguments | environment =>
      exact (Snapshot.readInvocation_mirrors hSource snapshot).bind fun _ => .pure _
  | commandLine => exact (Snapshot.readCommandLine_mirrors hSource snapshot).bind fun _ => .pure _
  | get | current | probe | copy => exact .pure _

theorem Command.run_mirrors (hCensus : census.Mirrors linked census') (held : Option Snapshot)
    (command : Command) :
    Run.Mirrors linked (command.run census held) (command.run census' held) := by
  cases command with
  | get pid slot => exact (Census.get_mirrors hCensus pid).bind fun _ => .pure _
  | current slot => exact (Census.currentProcess_mirrors hCensus).bind fun _ => .pure _
  | probe pid slot =>
      rw [run, run, hCensus.release]
      exact (Snapshot.probe_mirrors hCensus.source pid _).bind fun _ => .pure _
  | refresh | arguments | environment | commandLine | copy =>
      cases held with
      | none => exact .pure _
      | some snapshot =>
          exact (Command.onSlot_mirrors hCensus.source snapshot _).bind fun _ => .pure _

/-- The sessions keep the same snapshots, and their hosts are linked. -/
structure Reflects (linked : Host κ → Host κ' → Prop) (first : Session κ) (second : Session κ') :
    Prop where
  slots : first.slot? = second.slot?
  host : linked first.host second.host

variable {first : Session κ} {second : Session κ'}

theorem Reflects.keep (hSame : Reflects linked first second) (slot : Nat) (snapshot : Snapshot) :
    Reflects linked (first.keep slot snapshot) (second.keep slot snapshot) := by
  refine ⟨?_, hSame.host⟩
  rw [slot?_keep, slot?_keep, hSame.slots]

theorem Reflects.keepAll (hSame : Reflects linked first second) (slot : Nat)
    (snapshots : List Snapshot) :
    Reflects linked (first.keepAll slot snapshots) (second.keepAll slot snapshots) := by
  refine ⟨?_, ?_⟩
  · rw [slot?_keepAll, slot?_keepAll, hSame.slots]
  · rw [host_keepAll, host_keepAll]
    exact hSame.host

theorem Reflects.run {α : Type} (hSame : Reflects linked first second) {task : Run κ α}
    {task' : Run κ' α} (hTask : Run.Mirrors linked task task') :
    (first.run task).1 = (second.run task').1 ∧
      Reflects linked (first.run task).2 (second.run task').2 := by
  obtain ⟨hOutcome, hHost⟩ := hTask first.host second.host hSame.host
  exact ⟨hOutcome, hSame.slots, hHost⟩

/-- A command has the same reply and the same effect in both sessions. -/
theorem Reflects.command (hSame : Reflects linked first second)
    (hCensus : first.census.Mirrors linked second.census) (command : Command) :
    (first.act (.command command)).1 = (second.act (.command command)).1 ∧
      Reflects linked (first.act (.command command)).2 (second.act (.command command)).2 := by
  obtain ⟨hOutcome, hAfter⟩ :=
    hSame.run (command.run_mirrors hCensus (command.needs.bind second.slot?))
  rw [act, act, Session.command, Session.command, hSame.slots]
  generalize first.run _ = reached at hOutcome hAfter ⊢
  generalize second.run _ = other at hOutcome hAfter ⊢
  obtain ⟨outcome, after⟩ := reached
  obtain ⟨_, after'⟩ := other
  obtain rfl := hOutcome
  rcases outcome with abort | ⟨answer, _ | snapshot⟩
  · exact ⟨rfl, hAfter⟩
  · exact ⟨rfl, hAfter⟩
  · exact ⟨rfl, hAfter.keep command.target snapshot⟩

/-- So does a listing. -/
theorem Reflects.list (hSame : Reflects linked first second)
    (hCensus : first.census.Mirrors linked second.census) (listing : Listing) (slot : Nat) :
    (first.act (.list listing slot)).1 = (second.act (.list listing slot)).1 ∧
      Reflects linked (first.act (.list listing slot)).2 (second.act (.list listing slot)).2 := by
  obtain ⟨hOutcome, hAfter⟩ := hSame.run (listing.run_mirrors hCensus)
  rw [act, act]
  generalize first.run _ = reached at hOutcome hAfter ⊢
  generalize second.run _ = other at hOutcome hAfter ⊢
  obtain ⟨outcome, after⟩ := reached
  obtain ⟨_, after'⟩ := other
  obtain rfl := hOutcome
  cases outcome with
  | error abort => exact ⟨rfl, hAfter⟩
  | ok snapshots => exact ⟨rfl, hAfter.keepAll slot snapshots⟩

end Mirrors

/-- Under observation a deed has the reply and the effect that it has without. -/
theorem act_reflects (session : Session κ) (deed : Deed κ) :
    (session.watched.act deed.watched).1 = (session.act deed).1 ∧
      Reflects Host.Watches (session.watched.act deed.watched).2 (session.act deed).2 := by
  have hSame : Reflects Host.Watches session.watched session := ⟨rfl, rfl⟩
  cases deed with
  | meanwhile change clock => exact ⟨rfl, rfl, rfl⟩
  | command command => exact hSame.command session.census.watched_mirrors command
  | list listing slot => exact hSame.list session.census.watched_mirrors listing slot

end Session

end ProcessCensus
