import ProcessCensus.Census.Family
import ProcessCensus.Proofs.Occurrences
import Mathlib.Data.List.Flatten
import Mathlib.Data.List.Nodup
import Mathlib.Logic.Relation

/-!
What it means to list the processes below a root in breadth-first order. A pid that is listed under
several parents counts for the one whose turn comes first, and among the processes of that parent
the first one stands for it. So there is one such list only, whatever the processes are.
-/

namespace ProcessCensus

namespace Family

/-- One of the processes has pid `child` and the parent `parent`, and is not its own parent. -/
def IsParent (processes : List Snapshot) (parent child : Int32) : Prop :=
  ∃ p ∈ processes, p.attributes.parent = parent ∧ p.pid = child ∧ parent ≠ child

theorem mem_withParent {parent : Int32} {pool : List Snapshot} {p : Snapshot} :
    p ∈ withParent parent pool ↔ p ∈ pool ∧ p.attributes.parent = parent := by
  simp [withParent]

/-- Two elements of one list, neither of which stands before the other. -/
theorem eq_of_notMem_before {α : Type} {before before' after after' : List α} {x y : α}
    (hSame : before ++ x :: after = before' ++ y :: after') (hx : x ∉ before') (hy : y ∉ before) :
    x = y := by
  rcases List.append_eq_append_iff.mp hSame with ⟨rest, rfl, hRest⟩ | ⟨rest, rfl, hRest⟩
  · cases rest with
    | nil => exact (List.cons_eq_cons.mp hRest).1
    | cons z rest =>
        rw [(List.cons_eq_cons.mp hRest).1] at hx
        simp at hx
  · cases rest with
    | nil => exact (List.cons_eq_cons.mp hRest).1.symm
    | cons z rest =>
        rw [(List.cons_eq_cons.mp hRest).1] at hy
        simp at hy

/-- The list `found` holds what is below `root` among the processes, in breadth-first order. -/
structure BreadthFirst (root : Int32) (processes found : List Snapshot) : Prop where
  /-- The pids found are those that a chain of parents leads to, without the root itself. -/
  reached : ∀ pid, pid ∈ found.map (·.pid) ↔
    pid ≠ root ∧ Relation.TransGen (IsParent processes) root pid
  distinct : (found.map (·.pid)).Nodup
  /-- What is found is the first process listed with its pid among those of its parent. -/
  first : ∀ p ∈ found, (withParent p.attributes.parent processes).find? (·.pid == p.pid) = some p
  /-- A process comes after one with the pid of its parent, unless that is the root. -/
  rooted : ∀ before p after, found = before ++ p :: after →
    p.attributes.parent = root ∨ p.attributes.parent ∈ before.map (·.pid)
  /-- The root and the processes found, in their order, have their children come one after the
  other. -/
  generations : found = (root :: found.map (·.pid)).flatMap fun parent => withParent parent found
  /-- No parent whose turn comes earlier has a child with that pid. -/
  earliest : ∀ p ∈ found, ∀ before after,
    root :: found.map (·.pid) = before ++ p.attributes.parent :: after →
    ∀ earlier ∈ before, ¬IsParent processes earlier p.pid
  /-- The children of one parent keep the order in which their pids are first listed as such. -/
  siblings : ∀ parent, ((withParent parent found).map (·.pid)).Sublist
    ((withParent parent processes).map (·.pid)).eraseDups

namespace BreadthFirst

variable {root : Int32} {processes found other : List Snapshot}

theorem mem_processes (order : BreadthFirst root processes found) {p : Snapshot}
    (hFound : p ∈ found) : p ∈ processes :=
  (mem_withParent.mp (List.mem_of_find?_eq_some (order.first p hFound))).1

theorem parent_mem (order : BreadthFirst root processes found) {p : Snapshot}
    (hFound : p ∈ found) : p.attributes.parent ∈ root :: found.map (·.pid) := by
  obtain ⟨before, after, hSplit⟩ := List.append_of_mem hFound
  rcases order.rooted before p after hSplit with hRoot | hBefore
  · exact hRoot ▸ List.mem_cons_self
  · rw [hSplit, List.map_append]
    exact List.mem_cons_of_mem _ (List.mem_append_left _ hBefore)

theorem pid_ne_root (order : BreadthFirst root processes found) {p : Snapshot}
    (hFound : p ∈ found) : p.pid ≠ root :=
  ((order.reached p.pid).mp (List.mem_map_of_mem hFound)).1

theorem isParent (order : BreadthFirst root processes found) {p : Snapshot}
    (hFound : p ∈ found) : IsParent processes p.attributes.parent p.pid := by
  refine ⟨p, order.mem_processes hFound, rfl, rfl, fun hOwn => ?_⟩
  obtain ⟨before, after, hSplit⟩ := List.append_of_mem hFound
  rcases order.rooted before p after hSplit with hRoot | hBefore
  · exact order.pid_ne_root hFound (hOwn ▸ hRoot)
  · have hDistinct := order.distinct
    rw [hSplit, List.map_append, List.map_cons, List.nodup_append] at hDistinct
    exact hDistinct.2.2 _ hBefore _ List.mem_cons_self hOwn

/-- Who is found or the root leads on to its children. -/
theorem pid_mem (order : BreadthFirst root processes found) {parent pid : Int32}
    (hParent : parent ∈ root :: found.map (·.pid)) (hChild : IsParent processes parent pid)
    (hOther : pid ≠ root) : pid ∈ found.map (·.pid) := by
  refine (order.reached pid).mpr ⟨hOther, ?_⟩
  rcases List.mem_cons.mp hParent with rfl | hFound
  · exact .single hChild
  · exact ((order.reached parent).mp hFound).2.tail hChild

/-- In its turn a parent gets the children that no parent before it has. -/
theorem mem_turn (order : BreadthFirst root processes found) {before after : List Int32}
    {parent pid : Int32} (hTurn : root :: found.map (·.pid) = before ++ parent :: after) :
    pid ∈ (withParent parent found).map (·.pid) ↔
      pid ≠ root ∧ IsParent processes parent pid ∧
        ∀ earlier ∈ before, ¬IsParent processes earlier pid := by
  constructor
  · intro hPid
    obtain ⟨p, hp, rfl⟩ := List.mem_map.mp hPid
    obtain ⟨hFound, rfl⟩ := mem_withParent.mp hp
    exact ⟨order.pid_ne_root hFound, order.isParent hFound, order.earliest p hFound _ _ hTurn⟩
  · rintro ⟨hOther, hChild, hFirst⟩
    have hParent : parent ∈ root :: found.map (·.pid) := by simp [hTurn]
    obtain ⟨p, hFound, rfl⟩ := List.mem_map.mp (order.pid_mem hParent hChild hOther)
    obtain ⟨sooner, later, hOwn⟩ := List.append_of_mem (order.parent_mem hFound)
    have hSooner : parent ∉ sooner :=
      fun hMem => order.earliest p hFound _ _ hOwn parent hMem hChild
    have hBefore : p.attributes.parent ∉ before :=
      fun hMem => hFirst _ hMem (order.isParent hFound)
    have hSame := eq_of_notMem_before (hTurn.symm.trans hOwn) hSooner hBefore
    exact List.mem_map_of_mem (mem_withParent.mpr ⟨hFound, hSame.symm⟩)

/-- The children found of one parent are known by their pids. -/
theorem withParent_eq_filterMap (order : BreadthFirst root processes found) (parent : Int32) :
    withParent parent found = ((withParent parent found).map (·.pid)).filterMap fun pid =>
      (withParent parent processes).find? (·.pid == pid) := by
  rw [List.filterMap_map]
  refine (List.filterMap_some.symm.trans ?_)
  refine List.filterMap_congr fun p hp => ?_
  obtain ⟨hFound, rfl⟩ := mem_withParent.mp hp
  exact (order.first p hFound).symm

/-- Lists that agree up to a parent's turn agree in that turn. -/
theorem turn_unique (order : BreadthFirst root processes found)
    (order' : BreadthFirst root processes other) {before after after' : List Int32}
    {parent : Int32} (hTurn : root :: found.map (·.pid) = before ++ parent :: after)
    (hTurn' : root :: other.map (·.pid) = before ++ parent :: after') :
    withParent parent found = withParent parent other := by
  have hPids : (withParent parent found).map (·.pid) = (withParent parent other).map (·.pid) := by
    refine ((nodup_eraseDups _).perm_iff_eq_of_sublist (order.siblings parent)
      (order'.siblings parent)).mp ?_
    refine (List.perm_ext_iff_of_nodup
      ((nodup_eraseDups _).sublist (order.siblings parent))
      ((nodup_eraseDups _).sublist (order'.siblings parent))).mpr fun pid => ?_
    rw [order.mem_turn hTurn, order'.mem_turn hTurn']
  rw [order.withParent_eq_filterMap, order'.withParent_eq_filterMap, hPids]

theorem turns_unique (order : BreadthFirst root processes found)
    (order' : BreadthFirst root processes other) {parents : List Int32}
    (hParents : parents <+: root :: found.map (·.pid))
    (hParents' : parents <+: root :: other.map (·.pid)) :
    (parents.flatMap fun parent => withParent parent found) =
      parents.flatMap fun parent => withParent parent other := by
  refine List.flatMap_congr fun parent hMem => ?_
  obtain ⟨before, after, rfl⟩ := List.append_of_mem hMem
  obtain ⟨rest, hRest⟩ := hParents
  obtain ⟨rest', hRest'⟩ := hParents'
  rw [List.append_assoc, List.cons_append] at hRest hRest'
  exact order.turn_unique order' hRest.symm hRest'.symm

/-- The turns of some parents, beginning with the root, are where the list begins. -/
theorem turns_prefix (order : BreadthFirst root processes found) {parents : List Int32}
    (hParents : parents <+: root :: found.map (·.pid)) :
    (parents.flatMap fun parent => withParent parent found) <+: found := by
  obtain ⟨rest, hRest⟩ := hParents
  refine ⟨rest.flatMap fun parent => withParent parent found, ?_⟩
  rw [← List.flatMap_append, hRest, ← order.generations]

/-- Whatever is found has its turn after that of its parent. -/
theorem mem_turns (order : BreadthFirst root processes found) {before after : List Int32}
    {pid : Int32} (hBefore : before ≠ [])
    (hTurn : root :: found.map (·.pid) = before ++ pid :: after) :
    pid ∈ (before.flatMap fun parent => withParent parent found).map (·.pid) := by
  obtain ⟨_, earlier, rfl⟩ := List.exists_cons_of_ne_nil hBefore
  rw [List.cons_append, List.cons_eq_cons] at hTurn
  obtain ⟨rfl, hFound⟩ := hTurn
  obtain ⟨sooner, later, hSplit, rfl, hLater⟩ := List.map_eq_append_iff.mp hFound
  obtain ⟨p, rest, rfl, rfl, -⟩ := List.map_eq_cons_iff.mp hLater
  refine List.mem_map_of_mem (List.mem_flatMap.mpr ⟨p.attributes.parent, ?_, ?_⟩)
  · exact List.mem_cons.mpr (order.rooted sooner p rest hSplit)
  · exact mem_withParent.mpr ⟨by simp [hSplit], rfl⟩

theorem nodup_turns (order : BreadthFirst root processes found) :
    (root :: found.map (·.pid)).Nodup :=
  List.nodup_cons.mpr ⟨fun hRoot => ((order.reached root).mp hRoot).1 rfl, order.distinct⟩

/-- The turns of the first parents say whose turn is next. -/
theorem concat_prefix (order : BreadthFirst root processes found) {before : List Int32}
    {pid : Int32} (hBefore : before ≠ [])
    (hTurn : before ++ [pid] <+: root :: found.map (·.pid)) :
    before ++ [pid] <+:
      root :: (before.flatMap fun parent => withParent parent found).map (·.pid) := by
  have hTurns : root :: (before.flatMap fun parent => withParent parent found).map (·.pid) <+:
      root :: found.map (·.pid) :=
    List.cons_prefix_cons.mpr
      ⟨rfl, (order.turns_prefix ((List.prefix_append _ _).trans hTurn)).map _⟩
  obtain ⟨after, hSplit⟩ := hTurn
  have hMem := order.mem_turns hBefore
    (hSplit.symm.trans (List.append_assoc before [pid] after))
  have hNodup := order.nodup_turns
  rw [← hSplit] at hNodup hTurns
  rcases List.prefix_or_prefix_of_prefix hTurns (List.prefix_append _ _) with hShort | hLong
  · rcases List.prefix_concat_iff.mp hShort with hSame | hShorter
    · exact hSame ▸ List.prefix_refl _
    · -- then the pid would have had its turn before
      have hEarlier : pid ∈ before := hShorter.subset (List.mem_cons_of_mem _ hMem)
      rw [List.append_assoc, List.nodup_append] at hNodup
      exact absurd rfl (hNodup.2.2 pid hEarlier pid List.mem_cons_self)
  · exact hLong

/-- By induction on the parents that have had their turn. -/
theorem prefix_unique (order : BreadthFirst root processes found)
    (order' : BreadthFirst root processes other) (parents : List Int32) :
    parents <+: root :: found.map (·.pid) → parents <+: root :: other.map (·.pid) := by
  induction parents using List.reverseRecOn with
  | nil => exact fun _ => List.nil_prefix
  | append_singleton before pid ih =>
      intro hTurn
      have hCommon := (List.prefix_append before [pid]).trans hTurn
      by_cases hBefore : before = []
      · subst hBefore
        rw [List.nil_append, List.cons_prefix_cons] at hTurn ⊢
        exact ⟨hTurn.1, List.nil_prefix⟩
      · have hNext := order.concat_prefix hBefore hTurn
        rw [order.turns_unique order' hCommon (ih hCommon)] at hNext
        exact hNext.trans (List.cons_prefix_cons.mpr
          ⟨rfl, (order'.turns_prefix (ih hCommon)).map _⟩)

/-- There is one breadth-first order. -/
theorem unique (order : BreadthFirst root processes found)
    (order' : BreadthFirst root processes other) : other = found := by
  have hThere := order.prefix_unique order' _ (List.prefix_refl _)
  have hBack := order'.prefix_unique order _ (List.prefix_refl _)
  have hPids : root :: other.map (·.pid) = root :: found.map (·.pid) :=
    hBack.eq_of_length_le hThere.length_le
  rw [order.generations, order'.generations, hPids]
  exact (order.turns_unique order' (List.prefix_refl _) hThere).symm

end BreadthFirst

end Family

end ProcessCensus
