import ProcessCensus.Census.Query
import ProcessCensus.Proofs.Census.Load

/-!
The answer to a query is the top of the processes that are chosen. It is ordered by the ranking,
processes of equal rank stay as they were, and what the limit leaves out ranks no higher than what is
told. All of it rests on the ranking being a total preorder, as every ranking that is provided is.
-/

namespace ProcessCensus

namespace Ranking

/-- Every ranking that is provided. -/
def provided : List Ranking :=
  [level, byLoad, byResidentSize, byUpTime, byUpTimeDescending, byPid, byParent, byName]

theorem transCmp_key {α : Type} {compare : α → α → Ordering} (hCompare : Std.TransCmp compare)
    (key : Snapshot → α) : Std.TransCmp fun a b => compare (key a) (key b) where
  eq_swap := hCompare.eq_swap
  isLE_trans := hCompare.isLE_trans

section

variable {α : Type} [Ord α] [hOrder : Std.TransOrd α]

theorem transCmp_ascending (key : Snapshot → α) : Std.TransCmp (ascending key) :=
  transCmp_key hOrder key

theorem transCmp_descending (key : Snapshot → α) : Std.TransCmp (descending key) :=
  transCmp_key Std.TransCmp.opposite key

end

theorem transCmp_level : Std.TransCmp level where
  eq_swap := rfl
  isLE_trans _ _ := rfl

theorem transCmp_byName : Std.TransCmp byName :=
  transCmp_key (inferInstanceAs (Std.TransCmp (List.compareLex compare))) nameKey

theorem transCmp_of_mem_provided {ranking : Ranking} (hProvided : ranking ∈ provided) :
    Std.TransCmp ranking := by
  revert ranking
  simp only [provided, List.forall_mem_cons]
  exact ⟨transCmp_level, transCmp_descending _, transCmp_descending _, transCmp_ascending _,
    transCmp_descending _, transCmp_ascending _, transCmp_ascending _, transCmp_byName, by simp⟩

end Ranking

namespace Query

/-- How many of the chosen processes are told. -/
def bound (limit chosen : Nat) : Nat :=
  if limit = 0 then chosen else min limit chosen

/-- What a query tells of the processes that are chosen. -/
structure Top (ranking : Ranking) (limit : Nat) (chosen answer : List Snapshot) : Prop where
  length_eq : answer.length = bound limit chosen.length
  /-- Nothing is made up or told twice, and what is left out ranks no higher. -/
  left_out : ∃ left, (answer ++ left).Perm chosen ∧
    ∀ p ∈ left, ∀ q ∈ answer, ranking p q ≠ .lt
  ordered : answer.Pairwise fun a b => (ranking a b).isLE
  /-- Of processes of equal rank the first ones are told, in their order. -/
  stable : ∀ p, answer.filter (ranking p · == .eq) <+: chosen.filter (ranking p · == .eq)

theorem bound_le (limit chosen : Nat) : bound limit chosen ≤ chosen := by
  rw [bound]
  split
  · exact Nat.le_refl _
  · exact Nat.min_le_right _ _

theorem bound_mono {small large : Nat} (hSome : 0 < small) (hLarge : large = 0 ∨ small ≤ large)
    (chosen : Nat) : bound small chosen ≤ bound large chosen := by
  rw [bound, if_neg (Nat.ne_of_gt hSome), bound]
  split <;> omega

theorem bound_bound (limit chosen : Nat) : bound limit (bound limit chosen) = bound limit chosen := by
  simp only [bound]
  split <;> omega

section

variable {ranking : Ranking} (hRanking : Std.TransCmp ranking)

include hRanking

theorem isLE_trans (a b c : Snapshot) (hAB : (ranking a b).isLE) (hBC : (ranking b c).isLE) :
    (ranking a c).isLE :=
  Std.TransCmp.isLE_trans hAB hBC

theorem isLE_total (a b : Snapshot) : (ranking a b).isLE || (ranking b a).isLE := by
  rw [hRanking.eq_swap (a := b)]
  cases ranking a b <;> rfl

theorem pairwise_mergeSort (processes : List Snapshot) :
    (processes.mergeSort fun a b => (ranking a b).isLE).Pairwise fun a b => (ranking a b).isLE :=
  List.pairwise_mergeSort (isLE_trans hRanking) (isLE_total hRanking) processes

/-- Those of one rank are the same before and after. -/
theorem filter_mergeSort (p : Snapshot) (processes : List Snapshot) :
    (processes.mergeSort fun a b => (ranking a b).isLE).filter (ranking p · == .eq) =
      processes.filter (ranking p · == .eq) := by
  have hLevel : (processes.filter (ranking p · == .eq)).Pairwise
      fun a b => (ranking a b).isLE := by
    apply List.pairwise_of_forall_mem_list
    intro a hA b hB
    have hPA : ranking p a = .eq := by simpa using (List.mem_filter.mp hA).2
    have hPB : ranking p b = .eq := by simpa using (List.mem_filter.mp hB).2
    rw [← Std.TransCmp.congr_left hPA, hPB]
    rfl
  have hInside := List.sublist_mergeSort (isLE_trans hRanking) (isLE_total hRanking) hLevel
    List.filter_sublist
  have hKept := hInside.filter (ranking p · == .eq)
  rw [List.filter_filter] at hKept
  simp only [Bool.and_self] at hKept
  have hPerm := (List.mergeSort_perm processes fun a b => (ranking a b).isLE).filter
    (ranking p · == .eq)
  exact (hKept.eq_of_length hPerm.length_eq.symm).symm

theorem top_take (limit : Nat) (chosen : List Snapshot) :
    Top ranking limit chosen ((chosen.mergeSort fun a b => (ranking a b).isLE).take
      (bound limit chosen.length)) := by
  have hSorted := pairwise_mergeSort hRanking chosen
  have hStable := fun p => filter_mergeSort hRanking p chosen
  have hPerm := List.mergeSort_perm chosen fun a b => (ranking a b).isLE
  generalize (chosen.mergeSort fun a b => (ranking a b).isLE) = sorted at hSorted hStable hPerm
  constructor
  · rw [List.length_take, hPerm.length_eq]
    exact Nat.min_eq_left (bound_le _ _)
  · refine ⟨sorted.drop (bound limit chosen.length), ?_, ?_⟩
    · rwa [List.take_append_drop]
    · intro p hLeft q hTold hHigher
      rw [← List.take_append_drop (bound limit chosen.length) sorted, List.pairwise_append]
        at hSorted
      have hRank := hSorted.2.2 q hTold p hLeft
      rw [hRanking.eq_swap, hHigher] at hRank
      cases hRank
  · exact hSorted.sublist (List.take_sublist _ _)
  · intro p
    rw [← hStable p]
    exact (List.take_prefix _ _).filter _

end

theorem choose_eq (query : Query) (processes : List Snapshot) :
    query.choose processes = processes.filter (query.choice.getD .everything) := by
  rw [choose]
  cases query.choice with
  | none => exact (List.filter_eq_self.mpr fun _ _ => rfl).symm
  | some choice => rfl

theorem rank_eq (query : Query) (processes : List Snapshot) :
    query.rank processes =
      processes.mergeSort fun a b => (query.ranking.getD .level a b).isLE := by
  rw [rank]
  cases query.ranking with
  | none =>
      symm
      apply List.mergeSort_of_pairwise
      exact List.pairwise_of_forall fun _ _ => rfl
  | some ranking => rfl

theorem cut_eq (query : Query) (processes : List Snapshot) :
    query.cut processes = processes.take (bound query.limit processes.length) := by
  rw [cut, bound]
  split
  case isTrue => rw [List.take_length]
  case isFalse =>
    rw [List.take_eq_take_iff]
    omega

theorem apply_eq (query : Query) (processes : List Snapshot) :
    query.apply processes =
      ((processes.filter (query.choice.getD .everything)).mergeSort
        fun a b => (query.ranking.getD .level a b).isLE).take
          (bound query.limit (processes.filter (query.choice.getD .everything)).length) := by
  rw [apply, cut_eq, rank_eq, choose_eq, List.length_mergeSort]

theorem mem_of_mem_apply {query : Query} {processes : List Snapshot} {snapshot : Snapshot}
    (hMem : snapshot ∈ query.apply processes) : snapshot ∈ processes := by
  rw [apply_eq] at hMem
  have hRanked := List.mem_of_mem_take hMem
  rw [List.mem_mergeSort] at hRanked
  exact (List.mem_filter.mp hRanked).1

theorem transCmp_getD {query : Query} (hRanking : ∀ ranking ∈ query.ranking, Std.TransCmp ranking) :
    Std.TransCmp (query.ranking.getD .level) := by
  cases hQuery : query.ranking with
  | none => exact Ranking.transCmp_level
  | some ranking => exact hRanking ranking hQuery

/-- An answer is its own answer. -/
theorem apply_apply {query : Query} (hRanking : ∀ ranking ∈ query.ranking, Std.TransCmp ranking)
    (processes : List Snapshot) : query.apply (query.apply processes) = query.apply processes := by
  have hTop := top_take (transCmp_getD hRanking) query.limit
    (processes.filter (query.choice.getD .everything))
  rw [← apply_eq] at hTop
  obtain ⟨left, hPerm, -⟩ := hTop.left_out
  have hChosen : (query.apply processes).filter (query.choice.getD .everything) =
      query.apply processes := by
    rw [List.filter_eq_self]
    intro p hTold
    have hMem : p ∈ processes.filter (query.choice.getD .everything) :=
      hPerm.subset (List.mem_append_left left hTold)
    exact (List.mem_filter.mp hMem).2
  rw [apply_eq query (query.apply processes), hChosen, List.mergeSort_of_pairwise hTop.ordered,
    hTop.length_eq, bound_bound, ← hTop.length_eq, List.take_length]

theorem apply_isPrefix (query : Query) {small large : Nat} (hSome : 0 < small)
    (hLarge : large = 0 ∨ small ≤ large) (processes : List Snapshot) :
    { query with limit := small }.apply processes <+:
      { query with limit := large }.apply processes := by
  rw [apply_eq, apply_eq]
  exact List.take_prefix_take_left (bound_mono hSome hLarge _)

/-- The answer to a query is the top of the stable order, whichever total preorder the ranking is;
and each of those that are provided is one, with the loads in the total order of doubles. -/
theorem apply_top :
    (∀ ranking ∈ Ranking.provided, Std.TransCmp ranking) ∧
      (∀ a b, Ranking.byLoad a b = compare (Load.place b.load) (Load.place a.load)) ∧
      ∀ query : Query, (∀ ranking ∈ query.ranking, Std.TransCmp ranking) →
        ∀ processes : List Snapshot,
          Top (query.ranking.getD .level) query.limit
            (processes.filter (query.choice.getD .everything)) (query.apply processes) ∧
          (∀ small large, 0 < small → (large = 0 ∨ small ≤ large) →
            { query with limit := small }.apply processes <+:
              { query with limit := large }.apply processes) ∧
          query.apply (query.apply processes) = query.apply processes := by
  refine ⟨fun _ => Ranking.transCmp_of_mem_provided, Load.byLoad_eq, ?_⟩
  intro query hRanking processes
  refine ⟨?_, fun small large hSome hLarge => ?_, apply_apply hRanking processes⟩
  · rw [apply_eq]
    exact top_take (transCmp_getD hRanking) query.limit _
  · exact apply_isPrefix query hSome hLarge processes

/-- A process of which only the name is known. -/
def named (pid : Int32) (name : String) : Snapshot where
  pid := pid
  release := .unknown
  attributes := { Attributes.unknown with name }
  invocation := none
  commandLine := none

/-- The limit falls between two names that differ in case only: the first of them is told. -/
theorem apply_top_tie :
    let query : Query := { choice := none, ranking := some .byName, limit := 2 }
    let processes := [named 1 "B", named 2 "c", named 3 "b", named 4 "A"]
    (∀ ranking ∈ query.ranking, Std.TransCmp ranking) ∧
      query.apply processes = [named 4 "A", named 1 "B"] ∧
      Top .byName 2 processes [named 4 "A", named 1 "B"] := by
  intro query processes
  have hRanking : ∀ ranking ∈ query.ranking, Std.TransCmp ranking := by
    intro ranking hMem
    obtain rfl : Ranking.byName = ranking := Option.some.inj hMem
    exact apply_top.1 _ (by simp [Ranking.provided])
  have hFirst : (Ranking.byName (named 1 "B") (named 2 "c")).isLE = true := by decide
  have hSecond : (Ranking.byName (named 3 "b") (named 4 "A")).isLE = false := by decide
  have hLast : (Ranking.byName (named 1 "B") (named 4 "A")).isLE = false := by decide
  have hTie : (Ranking.byName (named 1 "B") (named 3 "b")).isLE = true := by decide
  have hRest : (Ranking.byName (named 2 "c") (named 3 "b")).isLE = false := by decide
  have hSorted : processes.mergeSort (fun a b => (Ranking.byName a b).isLE) =
      [named 4 "A", named 1 "B", named 3 "b", named 2 "c"] := by
    simp [processes, List.mergeSort, hFirst, hSecond, hLast, hTie, hRest]
  have hApply : query.apply processes = [named 4 "A", named 1 "B"] :=
    congrArg (List.take 2) hSorted
  have hTop := (apply_top.2.2 query hRanking processes).1
  rw [hApply] at hTop
  exact ⟨hRanking, hApply, hTop⟩

end Query
end ProcessCensus
