import ProcessCensus.Proofs.Linux.Standing

/-!
Looking at Linux processes, whatever their files hold. One status line whose parentheses cross breaks
off whatever is asked about its process; every other content gives attributes or none, and keeps
nothing from being told about other processes.
-/

namespace ProcessCensus.Linux

open Text

variable {pid : Int32}

theorem source_steady (base : Host Kernel) (release : Release) :
    source.Steady release (Standing base (· = base.kernel.tree)) base.clock
      fun pid => ((attributes pid release).on base).1 :=
  .of_readEach rfl (fun _ hHost => hHost.clock) fun pid => attributes_steady base pid release

/-- The pids among the names below `/proc`. -/
def Tree.pids (tree : Tree) : List Int32 :=
  (tree.namesIn [Tree.procName]).filterMap pidOfName?

theorem listPids_on (host : Host Kernel) :
    listPids.outcome.on host =
      (.ok (if host.kernel.tree.pids.isEmpty then
        .error (.unsupported "/proc without process directories") else .ok host.kernel.tree.pids),
        host) := by
  rw [listPids, Attempt.on_bind_of_eq (Attempt.on_lift_of_eq (Run.on_kernel host))]
  change Run.on (Attempt.outcome (if host.kernel.tree.pids.isEmpty then _ else _)) host = _
  split <;> rfl

/-- The processes among the pids for which there is an answer, as they are at the time `now`. -/
def readable (release : Release) (now : Int) (answer : Int32 → Option Attributes)
    (pids : List Int32) : List Snapshot :=
  pids.filterMap fun pid => (answer pid).map fun a => Snapshot.taken release now pid (some a)

section Census

variable {census : Census Kernel} {host : Host Kernel} {answer : Int32 → Option Attributes}

theorem get_eq (hSource : census.source = source)
    (hAnswer : ((attributes pid census.release).on host).1 = .ok (answer pid)) :
    ((census.get pid).on host).1 =
      .ok ((answer pid).map fun a => Snapshot.taken census.release host.clock pid (some a)) := by
  have hSteady := source_steady host census.release
  rw [← hSource] at hSteady
  rw [(Census.get_yields hSteady pid host (.refl host)).1, hAnswer,
    ← Snapshot.guard_taken_of_live _ _ _ fun a hMem =>
      (attributes_fresh _ _ _ a (hMem ▸ hAnswer)).isLive]
  rfl

theorem resolve_eq (hSource : census.source = source) {pids : List Int32}
    (hAnswer : ∀ pid ∈ pids, ((attributes pid census.release).on host).1 = .ok (answer pid)) :
    ((census.resolve pids).on host).1 =
      .ok (readable census.release host.clock answer pids) := by
  have hSteady := source_steady host census.release
  rw [← hSource] at hSteady
  rw [(Census.resolve_yields hSteady pids host (.refl host)).1, Census.valid_eq_ok _ hAnswer, readable]
  refine congrArg Except.ok (List.filterMap_congr fun pid hPid => ?_)
  exact Snapshot.guard_taken_of_live _ _ _ fun a hMem =>
    (attributes_fresh _ _ _ a (hMem ▸ hAnswer pid hPid)).isLive

/-- One process whose status line is crossed is enough for nothing to be told. -/
theorem resolve_crossed (hSource : census.source = source) {pids : List Int32}
    (hPids : ∃ pid ∈ pids, host.kernel.tree.Crossed pid) :
    ((census.resolve pids).on host).1 = .error .crossedParentheses := by
  have hSteady := source_steady host census.release
  rw [← hSource] at hSteady
  have hCrossed : ∀ pid, host.kernel.tree.Crossed pid →
      ((attributes pid census.release).on host).1 = .error .crossedParentheses :=
    fun pid hPid => (attributes_crossed hPid census.release host (.refl host)).1
  rw [(Census.resolve_yields hSteady pids host (.refl host)).1]
  refine Census.valid_eq_error _ (fun pid _ => ?_) ?_
  · by_cases hPid : host.kernel.tree.Crossed pid
    case pos => exact .inr (hCrossed pid hPid)
    case neg => exact .inl ((attributes_certain hPid census.release).exists_ok (.refl host))
  · obtain ⟨pid, hMem, hPid⟩ := hPids
    exact ⟨pid, hMem, hCrossed pid hPid⟩

theorem everyProcess_crossed (hSource : census.source = source)
    (hPids : ∃ pid ∈ host.kernel.tree.pids, host.kernel.tree.Crossed pid) :
    (census.everyProcess.on host).1 = .error .crossedParentheses := by
  have hList := listPids_on host
  change source.list.outcome.on host = _ at hList
  obtain ⟨pid, hMem, hPid⟩ := hPids
  rw [← hSource, if_neg fun hEmpty => List.ne_nil_of_mem hMem (List.isEmpty_iff.mp hEmpty)] at hList
  rw [Census.everyProcess_on hList]
  exact resolve_crossed hSource ⟨pid, hMem, hPid⟩

/-- A system without any pid below `/proc` cannot be listed, and then no process is told. -/
theorem everyProcess_eq (hSource : census.source = source)
    (hAnswer : ∀ pid ∈ host.kernel.tree.pids,
      ((attributes pid census.release).on host).1 = .ok (answer pid)) :
    (census.everyProcess.on host).1 =
      .ok (readable census.release host.clock answer host.kernel.tree.pids) := by
  have hList := listPids_on host
  change source.list.outcome.on host = _ at hList
  rw [← hSource] at hList
  split at hList
  case isTrue hEmpty =>
    rw [Census.everyProcess, Run.on_bind_of_eq hList, List.isEmpty_iff.mp hEmpty]
    rfl
  case isFalse =>
    rw [Census.everyProcess_on hList]
    exact resolve_eq hSource hAnswer

/-- Whatever the files and links of the processes hold, a look at one of them has an answer, be it
that there is no process; and a listing tells every process of the list for which there is an answer.
The exception is a process whose status line has parentheses that cross: a look at it breaks off. -/
theorem census_survives_contents (census : Census Kernel) (hSource : census.source = source)
    (host : Host Kernel) :
    (∀ pid abort, ((census.source.attributes pid census.release).on host).1 = .error abort ↔
      abort = .crossedParentheses ∧ host.kernel.tree.Crossed pid) ∧
    ∃ answer : Int32 → Option Attributes,
      (∀ pid, ¬host.kernel.tree.Crossed pid →
        ((census.source.attributes pid census.release).on host).1 = .ok (answer pid) ∧
        ((census.get pid).on host).1 =
          .ok ((answer pid).map fun a => .taken census.release host.clock pid (some a))) ∧
      (∀ pids, (∀ pid ∈ pids, ¬host.kernel.tree.Crossed pid) →
        ((census.processesByPids pids).on host).1 =
          .ok (readable census.release host.clock answer pids.eraseDups)) ∧
      ((∀ pid ∈ host.kernel.tree.pids, ¬host.kernel.tree.Crossed pid) →
        let listed := readable census.release host.clock answer host.kernel.tree.pids
        ∀ query : Query, ((census.processes query).on host).1 = .ok (query.apply listed) ∧
          (∀ parent, ((census.children parent query).on host).1 =
            .ok (query.apply (Family.children parent listed))) ∧
          ∀ root, ((census.descendants root query).on host).1 =
            .ok (query.apply (Family.descendants root listed))) := by
  have hOk : ∀ pid, ∃ told, ¬host.kernel.tree.Crossed pid →
      ((attributes pid census.release).on host).1 = .ok told := by
    intro pid
    by_cases hPid : host.kernel.tree.Crossed pid
    case pos => exact ⟨none, fun hNot => absurd hPid hNot⟩
    case neg =>
      obtain ⟨told, hTold⟩ := (attributes_certain hPid census.release).exists_ok (.refl host)
      exact ⟨told, fun _ => hTold⟩
  choose answer hAnswer using hOk
  refine ⟨?_, answer, ?_, ?_, ?_⟩
  · intro pid abort
    rw [hSource, source]
    by_cases hPid : host.kernel.tree.Crossed pid
    case pos =>
      rw [(attributes_crossed hPid census.release host (.refl host)).1]
      simp [hPid, eq_comm]
    case neg =>
      rw [hAnswer pid hPid]
      simp [hPid]
  · intro pid hPid
    rw [hSource]
    exact ⟨hAnswer pid hPid, get_eq hSource (hAnswer pid hPid)⟩
  · intro pids hPids
    exact resolve_eq hSource fun pid hMem => hAnswer pid (hPids pid (List.mem_eraseDups.mp hMem))
  · intro hPids listed query
    have hEvery : (census.everyProcess.on host).1 = .ok listed :=
      everyProcess_eq hSource fun pid hMem => hAnswer pid (hPids pid hMem)
    have hMap : ∀ f : List Snapshot → List Snapshot,
        ((f <$> census.everyProcess).on host).1 = .ok (f listed) := fun f => by
      rw [Run.on_map, hEvery]
      rfl
    refine ⟨?_, fun parent => ?_, fun root => ?_⟩
    · exact hMap query.apply
    · exact hMap fun processes => query.apply (Family.children parent processes)
    · exact hMap fun processes => query.apply (Family.descendants root processes)

/-- A system with two processes. The status line of the second one is proper. -/
def pairHost (line : Bytes) : Host Kernel where
  kernel := {
    tree := ⟨[([[0x37]], .directory), ([[0x37], Utf8.bytes "stat"], .file line),
      ([[0x38]], .directory), ([[0x38], Utf8.bytes "stat"],
        .file (Utf8.bytes "8 (b) S 1 8 8 0 -1 0 12 0 3 0 25 18 0 0 20 0 1 0 150 8192 2"))]⟩
    users := []
    groups := []
    bootTime := .settled 1000
    clockTicks := 100
    pageSize := 4096
    ownPid := 1 }
  clock := 0
  journal := []

/-- The census of such a system by one worker. -/
def pairCensus : Census Kernel where
  source := source
  release := ⟨6, 8⟩
  settings := { retention := none, workers := none }
  available := ⟨1, Nat.one_pos⟩

theorem pids_pairHost (line : Bytes) : (pairHost line).kernel.tree.pids = [7, 8] := by rfl

/-- A status line that ends within the command name, and not in proper UTF-8 either. -/
theorem census_survives_contents_torn :
    let host := pairHost (Utf8.bytes "7 (a" ++ [0xff])
    pairCensus.source = source ∧ (∀ pid ∈ host.kernel.tree.pids, ¬host.kernel.tree.Crossed pid) ∧
      ∃ answer : Int32 → Option Attributes, answer 7 = none ∧ (answer 8).isSome ∧
        ((pairCensus.processesByPids [8, 7, 8]).on host).1 =
          .ok (readable ⟨6, 8⟩ 0 answer [8, 7]) ∧
        ((pairCensus.processes .all).on host).1 =
          .ok (Query.all.apply (readable ⟨6, 8⟩ 0 answer [7, 8])) := by
  intro host
  have hPids : host.kernel.tree.pids = [7, 8] := pids_pairHost _
  have hSeven : ¬host.kernel.tree.Crossed 7 := by
    rw [Tree.crossed_iff, Bool.not_eq_true]
    rfl
  have hEight : ¬host.kernel.tree.Crossed 8 := by
    rw [Tree.crossed_iff, Bool.not_eq_true]
    rfl
  have hNone : ((source.attributes 7 ⟨6, 8⟩).on host).1 = .ok none := by rfl
  have hSome : (((source.attributes 8 ⟨6, 8⟩).on host).1.map Option.isSome) = .ok true := by
    decide +kernel
  obtain ⟨-, answer, hAnswer, hByPids, hList⟩ := census_survives_contents pairCensus rfl host
  have hAll : ∀ pid ∈ host.kernel.tree.pids, ¬host.kernel.tree.Crossed pid := by
    rw [hPids]
    simp [hSeven, hEight]
  have hTold := (hList hAll .all).1
  rw [hPids] at hTold
  refine ⟨rfl, hAll, answer, ?_, ?_, hByPids [8, 7, 8] (by simp [hSeven, hEight]), hTold⟩
  · exact Except.ok.inj ((hAnswer 7 hSeven).1.symm.trans hNone)
  · have hAnswered : ((source.attributes 8 ⟨6, 8⟩).on host).1 = .ok (answer 8) := (hAnswer 8 hEight).1
    rw [hAnswered] at hSome
    exact Except.ok.inj hSome

/-- One process with a crossed status line keeps every listing from telling the others, and so does
asking for it beside others. -/
theorem crossed_line_aborts_census :
    let host := pairHost (Utf8.bytes ")(")
    host.kernel.tree.Crossed 7 ∧
      (((source.attributes 8 ⟨6, 8⟩).on host).1.map Option.isSome) = .ok true ∧
      ((source.attributes 7 ⟨6, 8⟩).on host).1 = .error .crossedParentheses ∧
      ((pairCensus.processes .all).on host).1 = .error .crossedParentheses ∧
      ((pairCensus.processesByPids [8, 7]).on host).1 = .error .crossedParentheses ∧
      ((pairCensus.children 1 .all).on host).1 = .error .crossedParentheses ∧
      ((pairCensus.descendants 1 .all).on host).1 = .error .crossedParentheses := by
  intro host
  have hSeven : host.kernel.tree.Crossed 7 := by
    rw [Tree.crossed_iff]
    rfl
  have hPids : host.kernel.tree.pids = [7, 8] := pids_pairHost _
  have hEvery : (pairCensus.everyProcess.on host).1 = .error .crossedParentheses :=
    everyProcess_crossed rfl ⟨7, hPids ▸ List.mem_cons_self, hSeven⟩
  have hMap : ∀ f : List Snapshot → List Snapshot,
      ((f <$> pairCensus.everyProcess).on host).1 = .error .crossedParentheses := fun f => by
    rw [Run.on_map, hEvery]
    rfl
  have hEight : (((source.attributes 8 ⟨6, 8⟩).on host).1.map Option.isSome) = .ok true := by
    decide +kernel
  exact ⟨hSeven, hEight, (attributes_crossed hSeven ⟨6, 8⟩ host (.refl host)).1, hMap _,
    resolve_crossed rfl ⟨7, by decide, hSeven⟩, hMap _, hMap _⟩

end Census

end ProcessCensus.Linux
