import ProcessCensus.Proofs.Census.Listing
import ProcessCensus.Proofs.Occurrences

/-!
Looking up pids that are given in any order and any number of times. Each is looked at where it
occurs first, before the pids are shared among workers, so neither the batches nor the answer depend
on how the repetitions would have fallen into shares.
-/

namespace ProcessCensus

/-- The given pids in the order in which they occur first. -/
structure FirstOccurrences (pids distinct : List Int32) : Prop where
  mem_iff : ∀ pid, pid ∈ distinct ↔ pid ∈ pids
  ordered : distinct.Pairwise fun a b => pids.idxOf a < pids.idxOf b

theorem FirstOccurrences.nodup {pids distinct : List Int32}
    (hFirst : FirstOccurrences pids distinct) : distinct.Nodup :=
  hFirst.ordered.imp fun hBefore hSame => Nat.ne_of_lt hBefore (congrArg pids.idxOf hSame)

/-- There is no other such list. -/
theorem FirstOccurrences.unique {pids first second : List Int32}
    (hFirst : FirstOccurrences pids first) (hSecond : FirstOccurrences pids second) :
    first = second := by
  have hPerm : first.Perm second := by
    rw [List.perm_ext_iff_of_nodup hFirst.nodup hSecond.nodup]
    exact fun pid => (hFirst.mem_iff pid).trans (hSecond.mem_iff pid).symm
  apply hPerm.eq_of_pairwise _ hFirst.ordered hSecond.ordered
  intro a b _ _ hBefore hAfter
  exact absurd hBefore (Nat.lt_asymm hAfter)

theorem firstOccurrences_eraseDups (pids : List Int32) :
    FirstOccurrences pids pids.eraseDups := by
  refine ⟨fun pid => List.mem_eraseDups, ?_⟩
  induction pids using List.reverseRecOn with
  | nil => exact .nil
  | append_singleton pids pid ih =>
      have hEarlier : ∀ other ∈ pids, (pids ++ [pid]).idxOf other = pids.idxOf other :=
        fun other hMem => by rw [List.idxOf_append, if_pos hMem]
      have hBefore : pids.eraseDups.Pairwise
          fun a b => (pids ++ [pid]).idxOf a < (pids ++ [pid]).idxOf b := by
        apply ih.imp_of_mem
        intro a b hA hB hBefore
        rwa [hEarlier a (List.mem_eraseDups.mp hA), hEarlier b (List.mem_eraseDups.mp hB)]
      rw [eraseDups_concat]
      split
      case isTrue => exact hBefore
      case isFalse hNew =>
        rw [List.pairwise_append]
        refine ⟨hBefore, List.pairwise_singleton _ _, ?_⟩
        intro a hA b hB
        obtain rfl := List.mem_singleton.mp hB
        have hOld := List.mem_eraseDups.mp hA
        rw [hEarlier a hOld, List.idxOf_append, if_neg hNew]
        exact Nat.lt_add_left _ (List.idxOf_lt_length_of_mem hOld)

namespace Census

variable {κ : Type} {now : Int} {outcome : Int32 → Except Abort (Option Attributes)}

theorem pids_of_mapM {release : Release} {pids : List Int32} {snapshots : List Snapshot}
    (hRead : (pids.mapM fun pid => Snapshot.taken release now pid <$> outcome pid) =
      .ok snapshots) : snapshots.map (·.pid) = pids := by
  induction pids generalizing snapshots with
  | nil =>
      cases hRead
      rfl
  | cons pid pids ih =>
      rw [List.mapM_cons] at hRead
      cases hPid : outcome pid with
      | error abort =>
          rw [hPid] at hRead
          cases hRead
      | ok answer =>
          rw [hPid] at hRead
          obtain ⟨rest, hRest, rfl⟩ := Run.exists_ok_of_map
            (f := (Snapshot.taken release now pid answer :: ·)) hRead
          rw [List.map_cons, ih hRest]
          rfl

/-- Whoever is told was asked for, in the same order. -/
theorem sublist_of_valid {release : Release} {pids : List Int32} {found : List Snapshot}
    (hValid : valid release now outcome pids = .ok found) : (found.map (·.pid)).Sublist pids := by
  obtain ⟨snapshots, hRead, rfl⟩ := Run.exists_ok_of_map hValid
  rw [← pids_of_mapM hRead]
  exact List.filter_sublist.map _

variable {census : Census κ} {steady : Host κ → Prop}

/-- If single look-ups all come to an end, what they tell is what is read. -/
theorem valid_of_get (hSource : census.source.Steady census.release steady now outcome)
    {host : Host κ} (hHost : steady host) {pids : List Int32} {told : Int32 → Option Snapshot}
    (hTold : ∀ pid ∈ pids, ((census.get pid).on host).1 = .ok (told pid)) :
    valid census.release now outcome pids = .ok (pids.filterMap told) := by
  have hEach : ∀ pid ∈ pids, ∃ answer, outcome pid = .ok answer ∧
      Option.guard Snapshot.isValid (Snapshot.taken census.release now pid answer) = told pid := by
    intro pid hMem
    have hGet := hTold pid hMem
    rw [(get_yields hSource pid host hHost).1] at hGet
    obtain ⟨snapshot, hSnapshot, hGuard⟩ := Run.exists_ok_of_map hGet
    obtain ⟨answer, hAnswer, rfl⟩ := Run.exists_ok_of_map hSnapshot
    exact ⟨answer, hAnswer, hGuard⟩
  choose! answer hOutcome hGuard using hEach
  rw [valid_eq_ok census.release hOutcome, List.filterMap_congr hGuard]

/-- Looking up pids answers what single look-ups of the distinct ones answer, in the order in which
they occur first. Nobody is told twice. Neither the number of workers nor the hosts in which they
start matter. All batches together hold each of the pids once, and no other. -/
theorem processesByPids_eq_getEach (census : Census κ) (pids : List Int32)
    {steady : Host κ → Prop} {now : Int} {outcome : Int32 → Except Abort (Option Attributes)}
    (hSource : census.source.Steady census.release steady now outcome)
    {host : Host κ} (hHost : steady host) :
    ∃ distinct, FirstOccurrences pids distinct ∧
      (∀ later, steady later →
        ((census.processesByPids pids).on host).1 = ((census.getEach distinct).on later).1) ∧
      (∀ told : Int32 → Option Snapshot,
        (∀ pid ∈ pids, ((census.get pid).on host).1 = .ok (told pid)) →
        ((census.processesByPids pids).on host).1 = .ok (distinct.filterMap told)) ∧
      (∀ settings available,
        (({ census with settings, available }.processesByPids pids).on host).1 =
          ((census.processesByPids pids).on host).1) ∧
      (∀ hosts : List Int32 → Host κ, (∀ share, steady (hosts share)) →
        ((census.processesByPids pids).on host).1 = joinShares ((census.shares distinct).map
          fun share => ((census.resolveShare share).on (hosts share)).1)) ∧
      (∀ found, ((census.processesByPids pids).on host).1 = .ok found →
        (found.map (·.pid)).Nodup) ∧
      ∃ asked : BatchAccount,
        ((census.accounted.processesByPids pids).on host.unasked).1 =
          ((census.processesByPids pids).on host).1 ∧
        ((census.accounted.processesByPids pids).on host.unasked).2.account = asked ∧
        ∀ pid, asked.flatten.count pid = if pid ∈ pids then 1 else 0 := by
  have hFirst := firstOccurrences_eraseDups pids
  have hResult : ((census.processesByPids pids).on host).1 =
      valid census.release now outcome pids.eraseDups :=
    (resolve_yields hSource pids.eraseDups host hHost).1
  refine ⟨pids.eraseDups, hFirst, ?_, ?_, ?_, ?_, ?_, census.shares pids.eraseDups, ?_, ?_, ?_⟩
  · intro later hLater
    rw [hResult, (getEach_yields hSource pids.eraseDups later hLater).1]
  · intro told hTold
    rw [hResult]
    apply valid_of_get hSource hHost
    exact fun pid hMem => hTold pid ((hFirst.mem_iff pid).mp hMem)
  · intro settings available
    let other : Census κ := { census with settings, available }
    have hOther : other.source.Steady other.release steady now outcome := hSource
    rw [hResult]
    exact (resolve_yields hOther pids.eraseDups host hHost).1
  · intro hosts hHosts
    have hEach : ∀ share, ((census.resolveShare share).on (hosts share)).1 =
        valid census.release now outcome share :=
      fun share => (resolveShare_yields hSource share (hosts share) (hHosts share)).1
    simp only [hEach]
    rw [hResult, joinShares_valid, flatten_shares]
  · intro found hFound
    rw [hResult] at hFound
    exact (sublist_of_valid hFound).nodup hFirst.nodup
  · exact (resolve_accounts census pids.eraseDups host.unasked).1
  · exact (resolve_accounts census pids.eraseDups host.unasked).2.2
  · intro pid
    rw [flatten_shares, hFirst.nodup.count]
    simp only [hFirst.mem_iff]

/-- The table of two processes that are there. -/
def pairTable : ProcessTable :=
  let attributes := { Attributes.unknown with state := .running, threads := 1 }
  .ofRows [⟨1, attributes, .empty, false⟩, ⟨2, attributes, .empty, false⟩] 1

/-- Two processes and one that has gone, all of them asked for again and again, and three workers. -/
theorem processesByPids_eq_getEach_repeated :
    let host : Host ProcessTable := { kernel := pairTable, clock := 0, journal := [] }
    let steady := fun host : Host ProcessTable =>
      host.clock = 0 ∧ host.kernel.rows = pairTable.rows
    crowdedCensus.source.Steady .unknown steady 0 (ProcessTable.outcome pairTable.rows) ∧
    steady host ∧
    (∃ found, ((crowdedCensus.processesByPids [2, 1, 2, 7, 2, 1]).on host).1 = .ok found ∧
      found.map (·.pid) = [2, 1]) ∧
    ((crowdedCensus.accounted.processesByPids [2, 1, 2, 7, 2, 1]).on
      host.unasked).2.account.flatten.count 2 = 1 := by
  intro host steady
  have hSource : crowdedCensus.source.Steady .unknown steady 0
      (ProcessTable.outcome pairTable.rows) :=
    ProcessTable.source_steady .unserved (by decide) .unknown pairTable.rows 0
  have hHost : steady host := ⟨rfl, rfl⟩
  obtain ⟨distinct, hFirst, -, hTold, -, -, -, asked, -, hAsked, hOnce⟩ :=
    processesByPids_eq_getEach crowdedCensus [2, 1, 2, 7, 2, 1] hSource hHost
  obtain rfl : distinct = [2, 1, 7] := hFirst.unique (firstOccurrences_eraseDups _)
  refine ⟨hSource, hHost, ⟨_, hTold (fun pid => Option.guard Snapshot.isValid
    (Snapshot.taken .unknown 0 pid (pairTable.rows.find? (·.pid == pid) |>.map (·.attributes)))) ?_,
    rfl⟩, ?_⟩
  · intro pid hMem
    simp only [List.mem_cons, List.not_mem_nil, or_false] at hMem
    rcases hMem with rfl | rfl | rfl | rfl | rfl | rfl <;> rfl
  · rw [hAsked]
    exact hOnce 2

end Census
end ProcessCensus
