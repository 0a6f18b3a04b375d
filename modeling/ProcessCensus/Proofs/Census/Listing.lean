import ProcessCensus.Census.Table
import ProcessCensus.Census.Basic
import ProcessCensus.Proofs.Census.Account
import ProcessCensus.Proofs.Chunks
import Mathlib.Data.List.ReduceOption

/-!
A listing that is shared among workers answers what single look-ups in the order of the pids would
have answered. This needs a system in which every pid keeps its one outcome while the listing runs,
be it attributes, absence or breaking off; nothing is assumed about the number of pids or workers.
-/

namespace ProcessCensus

variable {κ : Type}

/-- As long as the host is `steady`, the wall clock shows `now`, each pid has one outcome, and a
batch reads its pids in order with one answer for each. The kernel itself may change. -/
structure Source.Steady (source : Source κ) (release : Release) (steady : Host κ → Prop)
    (now : Int) (outcome : Int32 → Except Abort (Option Attributes)) : Prop where
  clock : ∀ host, steady host → host.clock = now
  attributes : ∀ pid, Run.Yields steady (source.attributes pid release) (outcome pid)
  batch : ∀ pids, Run.Yields steady (source.batch pids release) (pids.mapM outcome)

/-- A source without a way of its own to read a batch needs no more than steady attributes. -/
theorem Source.Steady.of_readEach {source : Source κ} {release : Release}
    {steady : Host κ → Prop} {now : Int} {outcome : Int32 → Except Abort (Option Attributes)}
    (hBatch : source.batch = Source.readEach source.attributes)
    (hClock : ∀ host, steady host → host.clock = now)
    (hAttributes : ∀ pid, Run.Yields steady (source.attributes pid release) (outcome pid)) :
    source.Steady release steady now outcome := by
  refine ⟨hClock, hAttributes, fun pids => ?_⟩
  rw [hBatch]
  exact Run.Yields.mapM hAttributes pids

namespace ProcessTable

/-- What reading the attributes of a process among the rows comes to. -/
def outcome (rows : List TableRow) (pid : Int32) : Except Abort (Option Attributes) :=
  match rows.find? (·.pid == pid) with
  | some row =>
    if row.raises then .error (.raised s!"scripted panic for {pid}") else .ok (some row.attributes)
  | none => .ok none

theorem attributes_yields (rows : List TableRow) (now : Int) (pid : Int32) (release : Release) :
    Run.Yields (fun host => host.clock = now ∧ host.kernel.rows = rows) (attributes pid release)
      (outcome rows pid) := by
  rintro host ⟨hClock, rfl⟩
  rw [attributes, Run.on_bind, Run.on_call]
  simp only [row?, outcome]
  cases host.kernel.rows.find? (·.pid == pid) with
  | none => exact ⟨rfl, hClock, rfl⟩
  | some row =>
      by_cases hRaises : row.raises
      · simp only [hRaises, ↓reduceIte]
        exact ⟨rfl, hClock, rfl⟩
      · simp only [hRaises, ↓reduceIte, Bool.false_eq_true]
        exact ⟨rfl, hClock, rfl⟩

/-- A table is steady as long as its rows stay, with and without an account of its batches. A table
whose batches are an answer short is not. -/
theorem source_steady (platform : Platform) {kind : TableBatch} (hKind : kind ≠ .short)
    (release : Release) (rows : List TableRow) (now : Int) :
    (source platform kind).Steady release
      (fun host => host.clock = now ∧ host.kernel.rows = rows) now (outcome rows) := by
  have hPlain : (source platform .plain).Steady release
      (fun host => host.clock = now ∧ host.kernel.rows = rows) now (outcome rows) :=
    .of_readEach rfl (fun _ hHost => hHost.1) fun pid => attributes_yields rows now pid release
  cases kind with
  | plain => exact hPlain
  | short => exact absurd rfl hKind
  | recorded =>
      refine ⟨hPlain.clock, hPlain.attributes, fun pids host hHost => ?_⟩
      change (Run.on (recordedBatch pids release) host).1 = _ ∧ _
      rw [recordedBatch, Run.on_bind, Run.on_call]
      exact hPlain.batch pids _ hHost

end ProcessTable

theorem Attributes.isLive_iff {a : Attributes} :
    a.isLive = true ↔ 0 < a.threads ∧ a.state ≠ .invalid := by
  simp [isLive]

/-- The snapshot for an answer that a source gave at the time `now`. -/
def Snapshot.taken (release : Release) (now : Int) (pid : Int32) (answer : Option Attributes) :
    Snapshot where
  pid := pid
  release := release
  attributes := .validated answer (UInt64.ofNat now.toNat)
  invocation := none
  commandLine := none

theorem Snapshot.guard_taken_of_live (release : Release) (now : Int) (pid : Int32)
    {answer : Option Attributes} (hLive : ∀ a ∈ answer, a.isLive = true) :
    Option.guard isValid (taken release now pid answer) =
      answer.map fun a => taken release now pid (some a) := by
  cases answer with
  | none => rfl
  | some a =>
      have hA : a.isLive = true := hLive a rfl
      have hState : a.state ≠ .invalid := (Attributes.isLive_iff.mp hA).2
      rw [Option.guard, Option.map_some, if_pos]
      simp [isValid, taken, Attributes.validated, hA, hState]

theorem Snapshot.ofAnswer_yields {steady : Host κ → Prop} {now : Int}
    (hClock : ∀ host, steady host → host.clock = now) (pid : Int32) (release : Release)
    (answer : Option Attributes) :
    Run.Yields steady (ofAnswer pid release answer) (.ok (taken release now pid answer)) := by
  intro host hHost
  rw [ofAnswer, Run.on_bind, Run.on_now, hClock host hHost]
  exact ⟨rfl, hHost⟩

namespace Census

/-- The snapshots of the valid processes among the pids, read one after the other from sources with
the given outcomes. The first of them that breaks off ends the reading. -/
def valid (release : Release) (now : Int) (outcome : Int32 → Except Abort (Option Attributes))
    (pids : List Int32) : Except Abort (List Snapshot) :=
  (·.filter Snapshot.isValid) <$>
    pids.mapM fun pid => Snapshot.taken release now pid <$> outcome pid

section Outcomes

variable {α β γ : Type}

private theorem mapM_zip (g : α → Except Abort β) (f : α → β → γ) (xs : List α) :
    (do let ys ← xs.mapM g; .ok ((xs.zip ys).map fun (x, y) => f x y)) =
      xs.mapM fun x => f x <$> g x := by
  induction xs with
  | nil => rfl
  | cons x xs ih =>
      rw [List.mapM_cons, List.mapM_cons, ← ih]
      cases g x with
      | error abort => rfl
      | ok y => cases xs.mapM g <;> rfl

private theorem mapM_map_each (f : β → γ) (g : α → Except Abort β) (xs : List α) :
    (xs.mapM fun x => f <$> g x) = List.map f <$> xs.mapM g := by
  induction xs with
  | nil => rfl
  | cons x xs ih =>
      rw [List.mapM_cons, List.mapM_cons, ih]
      cases g x with
      | error abort => rfl
      | ok y => cases xs.mapM g <;> rfl

/-- Reading in order ends at the first one that breaks off. -/
theorem mapM_eq_error {g : α → Except Abort β} {before : List α} {x : α} {abort : Abort}
    (hBefore : ∀ y ∈ before, ∃ value, g y = .ok value) (hx : g x = .error abort)
    (after : List α) : (before ++ x :: after).mapM g = .error abort := by
  induction before with
  | nil =>
      rw [List.nil_append, List.mapM_cons, hx]
      rfl
  | cons y before ih =>
      obtain ⟨value, hValue⟩ := hBefore y List.mem_cons_self
      rw [List.cons_append, List.mapM_cons, hValue,
        ih fun z hz => hBefore z (List.mem_cons_of_mem y hz)]
      rfl

end Outcomes

variable {census : Census κ} {steady : Host κ → Prop} {now : Int}
  {outcome : Int32 → Except Abort (Option Attributes)}

theorem valid_append (release : Release) (first second : List Int32) :
    valid release now outcome (first ++ second) = (do
      let share ← valid release now outcome first
      (share ++ ·) <$> valid release now outcome second) := by
  simp only [valid, List.mapM_append, map_eq_pure_bind, bind_assoc, pure_bind, List.filter_append]

/-- Shares joined in order are the valid processes of all shares, up to the first one that breaks
off in any share. -/
theorem joinShares_valid (release : Release) (shares : List (List Int32)) :
    joinShares (shares.map (valid release now outcome)) =
      valid release now outcome shares.flatten := by
  induction shares with
  | nil => rfl
  | cons share shares ih =>
      rw [List.map_cons, List.flatten_cons, valid_append, ← ih]
      cases valid release now outcome share <;> rfl

@[simp] theorem joinShares_singleton (share : Except Abort (List Snapshot)) :
    joinShares [share] = share := by
  cases share with
  | ok snapshots => simp [joinShares, Except.map]
  | error abort => rfl

theorem resolveShare_yields (hSource : census.source.Steady census.release steady now outcome)
    (pids : List Int32) :
    Run.Yields steady (census.resolveShare pids) (valid census.release now outcome pids) := by
  have hRun := (hSource.batch pids).bind fun answers =>
    (Run.Yields.mapM (fun pair : Int32 × Option Attributes =>
      Snapshot.ofAnswer_yields hSource.clock pair.1 census.release pair.2) (pids.zip answers)).map
        (·.filter Snapshot.isValid)
  have hOutcome : valid census.release now outcome pids = (do
      let answers ← pids.mapM outcome
      (·.filter Snapshot.isValid) <$> (pids.zip answers).mapM fun pair =>
        Except.ok (Snapshot.taken census.release now pair.1 pair.2)) := by
    rw [valid, ← mapM_zip, map_bind]
    refine bind_congr fun answers => ?_
    congr 1
    exact (List.mapM_pure : _ = (pure _ : Except Abort (List Snapshot))).symm
  rw [hOutcome]
  simpa only [resolveShare, map_eq_pure_bind] using hRun

/-- The shares into which a listing of the pids is cut, one for each worker at most. -/
def shares (census : Census κ) (pids : List Int32) : List (List Int32) :=
  let workers := min census.workers pids.length
  if workers ≤ 1 then [pids] else chunks (ceilDiv pids.length workers) pids

private theorem ceilDiv_share_pos {count workers : Nat} (hWorkers : ¬min workers count ≤ 1) :
    0 < ceilDiv count (min workers count) :=
  ceilDiv_pos (by omega) (by omega)

theorem flatten_shares (census : Census κ) (pids : List Int32) :
    (census.shares pids).flatten = pids := by
  simp only [shares]
  split
  · simp
  · rename_i hWorkers
    exact flatten_chunks (ceilDiv_share_pos hWorkers) pids

theorem length_shares_le (census : Census κ) (pids : List Int32) :
    (census.shares pids).length ≤ max 1 (min census.workers pids.length) := by
  simp only [shares]
  split
  · simp
  · rename_i hWorkers
    rw [length_chunks]
    exact (ceilDiv_ceilDiv_le (by omega) (by omega)).trans (Nat.le_max_right _ _)

theorem eq_nil_of_nil_mem_shares {census : Census κ} {pids : List Int32}
    (hMem : [] ∈ census.shares pids) : pids = [] := by
  simp only [shares] at hMem
  split at hMem
  · simpa using hMem
  · rename_i hWorkers
    exact absurd hMem (nil_notMem_chunks (ceilDiv_share_pos hWorkers) pids)

/-- However many workers there are, a listing has the outcome of reading the pids one by one. -/
theorem resolve_yields (hSource : census.source.Steady census.release steady now outcome)
    (pids : List Int32) :
    Run.Yields steady (census.resolve pids) (valid census.release now outcome pids) := by
  have hShares : joinShares ((census.shares pids).map (valid census.release now outcome)) = _ :=
    joinShares_valid census.release (census.shares pids)
  rw [flatten_shares, shares] at hShares
  rw [resolve, ← hShares]
  split
  · rw [List.map_singleton, joinShares_singleton]
    exact resolveShare_yields hSource pids
  · exact (Run.Yields.mapM_settle (resolveShare_yields hSource) _).bind
      fun outcomes => Run.Yields.known (joinShares outcomes)

/-- If none of the pids breaks off, all those that are there are told. -/
theorem valid_eq_ok (release : Release) {answer : Int32 → Option Attributes} {pids : List Int32}
    (hOutcome : ∀ pid ∈ pids, outcome pid = .ok (answer pid)) :
    valid release now outcome pids = .ok (pids.filterMap fun pid =>
      Option.guard Snapshot.isValid (Snapshot.taken release now pid (answer pid))) := by
  have hRead : (pids.mapM fun pid => Snapshot.taken release now pid <$> outcome pid) =
      .ok (pids.map fun pid => Snapshot.taken release now pid (answer pid)) := by
    induction pids with
    | nil => rfl
    | cons pid pids ih =>
        rw [List.mapM_cons, hOutcome pid List.mem_cons_self,
          ih fun other hMem => hOutcome other (List.mem_cons_of_mem pid hMem)]
        rfl
  have hKept : ((pids.map fun pid => Snapshot.taken release now pid (answer pid)).filter
      Snapshot.isValid) = pids.filterMap fun pid =>
        Option.guard Snapshot.isValid (Snapshot.taken release now pid (answer pid)) := by
    rw [← List.filterMap_eq_filter, List.filterMap_map]
    rfl
  rw [valid, hRead]
  exact congrArg Except.ok hKept

/-- If some of the pids break off, and all of these in the same way, so does the reading. -/
theorem valid_eq_error (release : Release) {abort : Abort} {pids : List Int32}
    (hEach : ∀ pid ∈ pids, (∃ answer, outcome pid = .ok answer) ∨ outcome pid = .error abort)
    (hSome : ∃ pid ∈ pids, outcome pid = .error abort) :
    valid release now outcome pids = .error abort := by
  have hRead : (pids.mapM fun pid => Snapshot.taken release now pid <$> outcome pid) =
      .error abort := by
    induction pids with
    | nil => simp at hSome
    | cons pid pids ih =>
        rw [List.mapM_cons]
        rcases hEach pid List.mem_cons_self with ⟨answer, hPid⟩ | hPid
        · rw [hPid, ih (fun other hMem => hEach other (List.mem_cons_of_mem pid hMem)) ?_]
          · rfl
          · obtain ⟨other, hMem, hOther⟩ := hSome
            rcases List.mem_cons.mp hMem with rfl | hMem
            · cases hPid.symm.trans hOther
            · exact ⟨other, hMem, hOther⟩
        · rw [hPid]
          rfl
  rw [valid, hRead]
  rfl

theorem probe_yields (hSource : census.source.Steady census.release steady now outcome)
    (pid : Int32) :
    Run.Yields steady (Snapshot.probe census.source pid census.release)
      (Snapshot.taken census.release now pid <$> outcome pid) := by
  rw [map_eq_pure_bind]
  exact (hSource.attributes pid).bind fun answer =>
    Snapshot.ofAnswer_yields hSource.clock pid census.release answer

theorem get_yields (hSource : census.source.Steady census.release steady now outcome)
    (pid : Int32) :
    Run.Yields steady (census.get pid)
      (Option.guard Snapshot.isValid <$> Snapshot.taken census.release now pid <$> outcome pid) := by
  have hGet : census.get pid =
      Option.guard Snapshot.isValid <$> Snapshot.probe census.source pid census.release := by
    rw [map_eq_pure_bind]
    rfl
  rw [hGet]
  exact (probe_yields hSource pid).map _

/-- Looks at the processes one by one, and leaves out those that are not there. -/
def getEach (census : Census κ) (pids : List Int32) : Run κ (List Snapshot) := do
  return (← pids.mapM census.get).reduceOption

theorem getEach_yields (hSource : census.source.Steady census.release steady now outcome)
    (pids : List Int32) :
    Run.Yields steady (census.getEach pids) (valid census.release now outcome pids) := by
  have hRun := (Run.Yields.mapM (get_yields hSource) pids).map List.reduceOption
  have hOutcome : valid census.release now outcome pids = List.reduceOption <$>
      pids.mapM fun pid => Option.guard Snapshot.isValid <$>
        Snapshot.taken census.release now pid <$> outcome pid := by
    rw [valid, mapM_map_each, Functor.map_map]
    congr 1
    funext snapshots
    rw [List.reduceOption, List.filterMap_map, Function.id_comp, List.filterMap_eq_filter]
  rw [hOutcome]
  simpa only [getEach, map_eq_pure_bind] using hRun

/-- The batches of a listing are its shares, even if some of them break off. -/
theorem resolve_accounts (census : Census κ) (pids : List Int32) :
    Run.Accounts (census.shares pids) (census.accounted.resolve pids) (census.resolve pids) := by
  have hWorkers : census.accounted.workers = census.workers := rfl
  rw [shares, resolve, resolve, hWorkers]
  split
  · exact resolveShare_accounts census pids
  · exact (Run.Accounts.mapM_settle (resolveShare_accounts census) _).bind
      fun _ host => ⟨rfl, rfl, (List.append_nil host.account).symm⟩

theorem everyProcess_on {census : Census κ} {pids : List Int32} {host listed : Host κ}
    (hList : census.source.list.outcome.on host = (.ok (.ok pids), listed)) :
    census.everyProcess.on host = (census.resolve pids).on listed := by
  rw [everyProcess, Run.on_bind, hList]

/-- A listing whose pids are known is their resolution. -/
theorem processes_on {census : Census κ} {pids : List Int32} {host listed : Host κ} (query : Query)
    (hList : census.source.list.outcome.on host = (.ok (.ok pids), listed)) :
    (census.processes query).on host =
      (query.apply <$> ((census.resolve pids).on listed).1, ((census.resolve pids).on listed).2) := by
  have hProcesses : census.processes query = query.apply <$> census.everyProcess :=
    (map_eq_pure_bind _ _).symm
  rw [hProcesses, Run.on_map, everyProcess_on hList]

theorem accounted_list_on {source : Source κ} {pids : List Int32} {host listed : Host κ}
    (hList : source.list.outcome.on host = (.ok (.ok pids), listed)) :
    source.accounted.list.outcome.on host.unasked = (.ok (.ok pids), listed.unasked) := by
  change source.list.outcome.besideAccount.on host.unasked = _
  rw [Run.besideAccount_on_unasked, hList]

/-- A listing answers what single look-ups in the order of the pids answer, and breaks off as the
first pid of the list that breaks off, for every number of workers. It does not matter in which
hosts the workers start, so nor does the order in which they work. The batches are the list cut into
pieces: no more than there are workers, and none without a pid unless nothing is listed. -/
theorem processes_eq_getEach (census : Census κ) (query : Query) {steady : Host κ → Prop}
    {now : Int} {outcome : Int32 → Except Abort (Option Attributes)}
    (hSource : census.source.Steady census.release steady now outcome)
    {pids : List Int32} {host listed : Host κ}
    (hList : census.source.list.outcome.on host = (.ok (.ok pids), listed))
    (hListed : steady listed) :
    (∀ later, steady later →
      ((census.processes query).on host).1 = ((query.apply <$> census.getEach pids).on later).1) ∧
    (∀ before pid after abort, pids = before ++ pid :: after →
      (∀ earlier ∈ before, ∃ answer, outcome earlier = .ok answer) → outcome pid = .error abort →
      ((census.processes query).on host).1 = .error abort) ∧
    (∀ hosts : List Int32 → Host κ, (∀ share, steady (hosts share)) →
      ((census.processes query).on host).1 = query.apply <$> joinShares
        ((census.shares pids).map fun share => ((census.resolveShare share).on (hosts share)).1)) ∧
    ∃ asked : BatchAccount,
      ((census.accounted.processes query).on host.unasked).1 =
        ((census.processes query).on host).1 ∧
      ((census.accounted.processes query).on host.unasked).2.account = asked ∧
      asked.flatten = pids ∧
      asked.length ≤ max 1 (min census.workers pids.length) ∧
      ([] ∈ asked → pids = []) := by
  have hProcesses : ((census.processes query).on host).1 =
      query.apply <$> valid census.release now outcome pids := by
    rw [processes_on query hList, (resolve_yields hSource pids listed hListed).1]
  refine ⟨?_, ?_, ?_, census.shares pids, ?_, ?_, flatten_shares census pids,
    length_shares_le census pids, eq_nil_of_nil_mem_shares⟩
  · intro later hLater
    rw [hProcesses, Run.on_map, (getEach_yields hSource pids later hLater).1]
  · intro before pid after abort hPids hBefore hPid
    have hRead : pids.mapM (fun p => Snapshot.taken census.release now p <$> outcome p) =
        .error abort := by
      rw [hPids]
      refine mapM_eq_error ?_ (by rw [hPid]; rfl) after
      intro earlier hEarlier
      obtain ⟨answer, hAnswer⟩ := hBefore earlier hEarlier
      exact ⟨_, by rw [hAnswer]; rfl⟩
    rw [hProcesses, valid, hRead]
    rfl
  · intro hosts hHosts
    have hEach : ∀ share, ((census.resolveShare share).on (hosts share)).1 =
        valid census.release now outcome share :=
      fun share => (resolveShare_yields hSource share (hosts share) (hHosts share)).1
    simp only [hEach]
    rw [hProcesses, joinShares_valid, flatten_shares]
  · rw [processes_on query (accounted_list_on hList), processes_on query hList]
    exact congrArg (query.apply <$> ·) (resolve_accounts census pids listed.unasked).1
  · rw [processes_on query (accounted_list_on hList)]
    exact (resolve_accounts census pids listed.unasked).2.2

/-- A table that lists pid 1 three times, a pid that has gone, and one that breaks off. -/
def crowdedTable : ProcessTable :=
  let attributes := { Attributes.unknown with state := .running, threads := 1 }
  { ProcessTable.ofRows [⟨1, attributes, .empty, false⟩, ⟨2, attributes, .empty, true⟩] 1 with
    listing := some (.ok [1, 7, 1, 2, 1]) }

/-- The census of such a table by three workers. -/
def crowdedCensus : Census ProcessTable where
  source := ProcessTable.source .unserved .recorded
  release := .unknown
  settings := { retention := none, workers := some ⟨3, Nat.succ_pos 2⟩ }
  available := ⟨1, Nat.one_pos⟩

theorem processes_eq_getEach_crowded :
    let host : Host ProcessTable := { kernel := crowdedTable, clock := 0, journal := [] }
    let steady := fun host : Host ProcessTable =>
      host.clock = 0 ∧ host.kernel.rows = crowdedTable.rows
    crowdedCensus.source.Steady .unknown steady 0 (ProcessTable.outcome crowdedTable.rows) ∧
    crowdedCensus.source.list.outcome.on host = (.ok (.ok [1, 7, 1, 2, 1]), host) ∧ steady host ∧
    ((crowdedCensus.processes .all).on host).1 =
      ((Query.all.apply <$> crowdedCensus.getEach [1, 7, 1, 2, 1]).on host).1 ∧
    ((crowdedCensus.processes .all).on host).1 =
      .error (.raised s!"scripted panic for {(2 : Int32)}") ∧
    ((crowdedCensus.accounted.processes .all).on host.unasked).2.account.length ≤ 3 := by
  intro host steady
  have hSource : crowdedCensus.source.Steady .unknown steady 0
      (ProcessTable.outcome crowdedTable.rows) :=
    ProcessTable.source_steady .unserved (by decide) .unknown crowdedTable.rows 0
  have hList : crowdedCensus.source.list.outcome.on host = (.ok (.ok [1, 7, 1, 2, 1]), host) := rfl
  obtain ⟨hEach, hAbort, -, asked, -, hAsked, -, hLength, -⟩ :=
    processes_eq_getEach crowdedCensus .all hSource hList ⟨rfl, rfl⟩
  refine ⟨hSource, hList, ⟨rfl, rfl⟩, hEach host ⟨rfl, rfl⟩, ?_, hAsked ▸ hLength⟩
  refine hAbort [1, 7, 1] 2 [1] _ rfl ?_ rfl
  intro earlier hEarlier
  simp only [List.mem_cons, List.not_mem_nil, or_false] at hEarlier
  rcases hEarlier with rfl | rfl | rfl <;> exact ⟨_, rfl⟩

end Census

end ProcessCensus
