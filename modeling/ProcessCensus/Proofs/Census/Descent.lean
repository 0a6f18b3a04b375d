import ProcessCensus.Census.Basic
import ProcessCensus.Proofs.Census.BreadthFirst
import ProcessCensus.Proofs.Run

/-!
The descendants of a process are those that a chain of parents leads to, each pid once and the
nearer generations first, in every list of processes: cycles, repeated pids and parents that are not
listed make no exception.
-/

namespace ProcessCensus

namespace Family

section FirstVisits

theorem firstVisits_sublist (visited : List Int32) (processes : List Snapshot) :
    (firstVisits visited processes).Sublist processes := by
  induction processes generalizing visited with
  | nil => exact List.Sublist.slnil
  | cons p rest ih =>
      rw [firstVisits]
      split
      · exact (ih visited).cons p
      · exact (ih (p.pid :: visited)).cons_cons p

theorem pid_notMem_of_mem_firstVisits {visited : List Int32} {processes : List Snapshot}
    {p : Snapshot} (hMem : p ∈ firstVisits visited processes) : p.pid ∉ visited := by
  induction processes generalizing visited with
  | nil => simp [firstVisits] at hMem
  | cons q rest ih =>
      rw [firstVisits] at hMem
      split at hMem
      · exact ih hMem
      · rename_i hNew
        rcases List.mem_cons.mp hMem with rfl | hRest
        · simpa using hNew
        · exact fun hOld => ih hRest (List.mem_cons_of_mem _ hOld)

theorem nodup_firstVisits (visited : List Int32) (processes : List Snapshot) :
    ((firstVisits visited processes).map (·.pid)).Nodup := by
  induction processes generalizing visited with
  | nil => exact List.nodup_nil
  | cons p rest ih =>
      rw [firstVisits]
      split
      · exact ih visited
      · rw [List.map_cons, List.nodup_cons]
        refine ⟨fun hMem => ?_, ih (p.pid :: visited)⟩
        obtain ⟨q, hq, hPid⟩ := List.mem_map.mp hMem
        exact pid_notMem_of_mem_firstVisits hq (hPid ▸ List.mem_cons_self)

/-- No pid gets lost: it was visited before, or its first process is visited now. -/
theorem mem_visited_or_mem_firstVisits (visited : List Int32) {processes : List Snapshot}
    {p : Snapshot} (hMem : p ∈ processes) :
    p.pid ∈ visited ∨ p.pid ∈ (firstVisits visited processes).map (·.pid) := by
  induction processes generalizing visited with
  | nil => simp at hMem
  | cons q rest ih =>
      rw [firstVisits]
      split
      · rename_i hOld
        rcases List.mem_cons.mp hMem with rfl | hRest
        · exact .inl (by simpa using hOld)
        · exact ih visited hRest
      · rcases List.mem_cons.mp hMem with rfl | hRest
        · exact .inr List.mem_cons_self
        · rcases ih (q.pid :: visited) hRest with hOld | hNew
          · rcases List.mem_cons.mp hOld with hSame | hOld
            · rw [hSame]
              exact .inr List.mem_cons_self
            · exact .inl hOld
          · exact .inr (List.mem_cons_of_mem _ hNew)

theorem firstVisits_eq_filter (visited : List Int32) {processes : List Snapshot}
    (hNodup : (processes.map (·.pid)).Nodup) :
    firstVisits visited processes = processes.filter fun p => !visited.contains p.pid := by
  induction processes generalizing visited with
  | nil => rfl
  | cons p rest ih =>
      rw [List.map_cons, List.nodup_cons] at hNodup
      rw [firstVisits, List.filter_cons]
      by_cases hOld : visited.contains p.pid
      · simp only [hOld, ↓reduceIte, Bool.not_true, Bool.false_eq_true]
        exact ih visited hNodup.2
      · simp only [hOld, ↓reduceIte, Bool.not_false, Bool.false_eq_true]
        rw [ih _ hNodup.2]
        congr 1
        refine List.filter_congr fun q hq => ?_
        have hOther : q.pid ≠ p.pid :=
          fun hSame => hNodup.1 (hSame ▸ List.mem_map_of_mem (f := (·.pid)) hq)
        simp [hOther]

/-- The first process with its pid stands for all of them. -/
theorem find?_of_mem_firstVisits {visited : List Int32} {processes : List Snapshot}
    {p : Snapshot} (hMem : p ∈ firstVisits visited processes) :
    processes.find? (·.pid == p.pid) = some p := by
  induction processes generalizing visited with
  | nil => simp [firstVisits] at hMem
  | cons q rest ih =>
      rw [firstVisits] at hMem
      split at hMem
      · rename_i hOld
        have hOther : q.pid ≠ p.pid :=
          fun hSame => pid_notMem_of_mem_firstVisits hMem (hSame ▸ by simpa using hOld)
        rw [List.find?_cons_of_neg (by simpa using hOther)]
        exact ih hMem
      · rcases List.mem_cons.mp hMem with rfl | hRest
        · exact List.find?_cons_of_pos (by simp)
        · have hOther : q.pid ≠ p.pid :=
            fun hSame => pid_notMem_of_mem_firstVisits hRest (hSame ▸ List.mem_cons_self)
          rw [List.find?_cons_of_neg (by simpa using hOther)]
          exact ih hRest

theorem pids_firstVisits (visited : List Int32) (processes : List Snapshot) :
    (firstVisits visited processes).map (·.pid) =
      (processes.map (·.pid)).eraseDups.filter fun pid => !visited.contains pid := by
  induction processes generalizing visited with
  | nil => rfl
  | cons p rest ih =>
      rw [firstVisits, List.map_cons, List.eraseDups_cons, eraseDups_filter]
      split
      · rename_i hOld
        rw [ih, List.filter_cons_of_neg (by simpa using hOld), List.filter_filter]
        refine List.filter_congr fun pid _ => ?_
        by_cases hSame : pid = p.pid
        · simp_all
        · simp [hSame]
      · rename_i hNew
        rw [List.map_cons, ih, List.filter_cons_of_pos (by simpa using hNew), List.filter_filter]
        congr 1
        refine List.filter_congr fun pid _ => ?_
        by_cases hSame : pid = p.pid <;> simp [hSame]

end FirstVisits

theorem mem_withoutParent {parent : Int32} {pool : List Snapshot} {p : Snapshot} :
    p ∈ withoutParent parent pool ↔ p ∈ pool ∧ p.attributes.parent ≠ parent := by
  simp [withoutParent]

theorem withParent_append (parent : Int32) (first second : List Snapshot) :
    withParent parent (first ++ second) = withParent parent first ++ withParent parent second :=
  List.filter_append first second

section Below

@[simp] theorem below_nil (visited : List Int32) (pool : List Snapshot) :
    below visited [] pool = [] := by
  rw [below]

theorem mem_pool_of_mem_below {visited pending : List Int32} {pool : List Snapshot} {p : Snapshot}
    (hMem : p ∈ below visited pending pool) : p ∈ pool := by
  induction visited, pending, pool using below.induct with
  | case1 visited pool => simp at hMem
  | case2 visited parent pending pool found pids ih =>
      rw [below] at hMem
      rcases List.mem_append.mp hMem with hFound | hLater
      · exact (mem_withParent.mp ((firstVisits_sublist _ _).subset hFound)).1
      · exact (mem_withoutParent.mp (ih hLater)).1

/-- A pid that has been visited is not found again. -/
theorem pid_notMem_of_mem_below {visited pending : List Int32} {pool : List Snapshot}
    {p : Snapshot} (hMem : p ∈ below visited pending pool) : p.pid ∉ visited := by
  induction visited, pending, pool using below.induct with
  | case1 visited pool => simp at hMem
  | case2 visited parent pending pool found pids ih =>
      rw [below] at hMem
      rcases List.mem_append.mp hMem with hFound | hLater
      · exact pid_notMem_of_mem_firstVisits hFound
      · exact fun hOld => ih hLater (List.mem_append_right _ hOld)

theorem nodup_below (visited pending : List Int32) (pool : List Snapshot) :
    ((below visited pending pool).map (·.pid)).Nodup := by
  induction visited, pending, pool using below.induct with
  | case1 visited pool => simp
  | case2 visited parent pending pool found pids ih =>
      rw [below, List.map_append, List.nodup_append]
      refine ⟨nodup_firstVisits _ _, ih, ?_⟩
      intro first hFirst second hSecond hSame
      obtain ⟨p, hp, rfl⟩ := List.mem_map.mp hSecond
      exact pid_notMem_of_mem_below hp (List.mem_append_left _ (hSame ▸ hFirst))

/-- Every process found has a pending parent, or one found before it. -/
theorem below_rooted (visited pending : List Int32) (pool : List Snapshot) :
    ∀ before p after, below visited pending pool = before ++ p :: after →
      p.attributes.parent ∈ pending ∨ p.attributes.parent ∈ before.map (·.pid) := by
  induction visited, pending, pool using below.induct with
  | case1 visited pool => simp
  | case2 visited parent pending pool found pids ih =>
      intro before p after hBelow
      rw [below] at hBelow
      rcases List.append_eq_append_iff.mp hBelow with ⟨later, rfl, hLater⟩ | ⟨rest, hFound, hRest⟩
      · rw [List.map_append]
        rcases ih later p after hLater with hPending | hEarlier
        · rcases List.mem_append.mp hPending with hOld | hNew
          · exact .inl (List.mem_cons_of_mem _ hOld)
          · exact .inr (List.mem_append_left _ hNew)
        · exact .inr (List.mem_append_right _ hEarlier)
      · cases rest with
        | nil =>
            rw [List.append_nil] at hFound
            rw [List.nil_append] at hRest
            rcases ih [] p after hRest.symm with hPending | hEarlier
            · rcases List.mem_append.mp hPending with hOld | hNew
              · exact .inl (List.mem_cons_of_mem _ hOld)
              · exact .inr (hFound ▸ hNew)
            · simp at hEarlier
        | cons q rest =>
            have hMem : p ∈ firstVisits visited (withParent parent pool) := by
              rw [hFound, (List.cons_eq_cons.mp hRest).1]
              simp
            rw [(mem_withParent.mp ((firstVisits_sublist _ _).subset hMem)).2]
            exact .inl List.mem_cons_self

/-- Only chains of parents lead to what is found. -/
theorem below_led (processes : List Snapshot) (visited pending : List Int32) (pool : List Snapshot)
    (hPool : ∀ p ∈ pool, p ∈ processes ∧ p.attributes.parent ≠ p.pid) :
    ∀ p ∈ below visited pending pool,
      ∃ start ∈ pending, Relation.TransGen (IsParent processes) start p.pid := by
  induction visited, pending, pool using below.induct with
  | case1 visited pool => simp
  | case2 visited parent pending pool found pids ih =>
      intro p hMem
      have hFirst : ∀ q ∈ found, IsParent processes parent q.pid := by
        intro q hq
        obtain ⟨hIn, hParent⟩ := mem_withParent.mp ((firstVisits_sublist _ _).subset hq)
        exact ⟨q, (hPool q hIn).1, hParent, rfl, hParent ▸ (hPool q hIn).2⟩
      rw [below] at hMem
      rcases List.mem_append.mp hMem with hFound | hLater
      · exact ⟨parent, List.mem_cons_self, .single (hFirst p hFound)⟩
      · obtain ⟨start, hStart, hLeads⟩ :=
          ih (fun q hq => hPool q (mem_withoutParent.mp hq).1) p hLater
        rcases List.mem_append.mp hStart with hOld | hNew
        · exact ⟨start, List.mem_cons_of_mem _ hOld, hLeads⟩
        · obtain ⟨q, hq, rfl⟩ := List.mem_map.mp hNew
          exact ⟨parent, List.mem_cons_self, .head (hFirst q hq) hLeads⟩

/-- The children of what is pending or found have been visited before, or are found. -/
theorem below_closed (visited pending : List Int32) (pool : List Snapshot) :
    ∀ p ∈ pool, p.attributes.parent ∈ pending ++ (below visited pending pool).map (·.pid) →
      p.pid ∈ visited ++ (below visited pending pool).map (·.pid) := by
  induction visited, pending, pool using below.induct with
  | case1 visited pool => simp
  | case2 visited parent pending pool found pids ih =>
      intro p hp hParent
      rw [below, List.map_append] at hParent ⊢
      by_cases hSame : p.attributes.parent = parent
      · rcases mem_visited_or_mem_firstVisits visited (mem_withParent.mpr ⟨hp, hSame⟩) with
          hOld | hNew
        · exact List.mem_append_left _ hOld
        · exact List.mem_append_right _ (List.mem_append_left _ hNew)
      · have hLater := ih p (mem_withoutParent.mpr ⟨hp, hSame⟩)
        simp only [List.cons_append, List.mem_cons, List.mem_append, hSame, false_or] at hParent hLater ⊢
        have hFound := hLater (by tauto)
        tauto

/-- The processes with the given parent, of those that the first visits find among its children. -/
theorem withParent_firstVisits (visited : List Int32) (parent other : Int32)
    (pool : List Snapshot) :
    withParent other (firstVisits visited (withParent parent pool)) =
      if other = parent then firstVisits visited (withParent parent pool) else [] := by
  have hParent : ∀ p ∈ firstVisits visited (withParent parent pool), p.attributes.parent = parent :=
    fun p hp => (mem_withParent.mp ((firstVisits_sublist _ _).subset hp)).2
  split
  · rename_i hSame
    exact List.filter_eq_self.mpr fun p hp => by simp [hParent p hp, hSame]
  · rename_i hOther
    refine List.filter_eq_nil_iff.mpr fun p hp => ?_
    rw [hParent p hp, beq_iff_eq]
    exact fun hSame => hOther hSame.symm

/-- A parent whose children have left the pool has no more of them. -/
theorem withParent_below_withoutParent (visited pending : List Int32) (parent : Int32)
    (pool : List Snapshot) :
    withParent parent (below visited pending (withoutParent parent pool)) = [] := by
  refine List.filter_eq_nil_iff.mpr fun p hp => ?_
  rw [beq_iff_eq]
  exact (mem_withoutParent.mp (mem_pool_of_mem_below hp)).2

/-- Parents take their turns in the order in which they are found. This needs that no parent is
pending twice, and that it has been visited itself. -/
theorem below_generations (visited pending : List Int32) (pool : List Snapshot) :
    pending.Nodup → pending ⊆ visited →
      below visited pending pool = (pending ++ (below visited pending pool).map (·.pid)).flatMap
        fun parent => withParent parent (below visited pending pool) := by
  induction visited, pending, pool using below.induct with
  | case1 visited pool => simp
  | case2 visited parent pending pool found pids ih =>
      intro hNodup hVisited
      obtain ⟨hParent, hPending⟩ := List.nodup_cons.mp hNodup
      obtain ⟨hParentVisited, hPendingVisited⟩ := List.cons_subset.mp hVisited
      have hFresh : ∀ pid ∈ pids, pid ∉ visited := by
        intro pid hPid
        obtain ⟨p, hp, rfl⟩ := List.mem_map.mp hPid
        exact pid_notMem_of_mem_firstVisits hp
      have hLater := ih
        (hPending.append (nodup_firstVisits _ _) fun pid hOld hNew =>
          hFresh pid hNew (hPendingVisited hOld))
        (List.append_subset.mpr ⟨fun pid hOld => List.mem_append_right _ (hPendingVisited hOld),
          fun pid hNew => List.mem_append_left _ hNew⟩)
      have hOther : ∀ pid ∈ pending ++ pids ++
          (below (pids ++ visited) (pending ++ pids) (withoutParent parent pool)).map (·.pid),
          pid ≠ parent := by
        rintro pid hPid rfl
        rcases List.mem_append.mp hPid with hBefore | hFound
        · rcases List.mem_append.mp hBefore with hOld | hNew
          · exact hParent hOld
          · exact hFresh pid hNew hParentVisited
        · obtain ⟨p, hp, rfl⟩ := List.mem_map.mp hFound
          exact pid_notMem_of_mem_below hp (List.mem_append_right _ hParentVisited)
      have hTurn : withParent parent
          (found ++ below (pids ++ visited) (pending ++ pids) (withoutParent parent pool)) = found := by
        rw [withParent_append, withParent_firstVisits, if_pos rfl, withParent_below_withoutParent,
          List.append_nil]
      rw [below, List.map_append, List.cons_append, List.flatMap_cons, hTurn, ← List.append_assoc]
      congr 1
      refine hLater.trans (List.flatMap_congr fun pid hPid => ?_)
      rw [withParent_append, withParent_firstVisits, if_neg (hOther pid hPid), List.nil_append]

theorem withParent_withoutParent {parent other : Int32} (hOther : parent ≠ other)
    (pool : List Snapshot) : withParent parent (withoutParent other pool) = withParent parent pool := by
  rw [withParent, withoutParent, List.filter_filter]
  refine List.filter_congr fun p _ => ?_
  by_cases hSame : p.attributes.parent = parent
  · simp [hSame, hOther]
  · simp [hSame]

/-- What is found is the first process with its pid among those of its parent. -/
theorem below_first (visited pending : List Int32) (pool : List Snapshot) :
    ∀ p ∈ below visited pending pool,
      (withParent p.attributes.parent pool).find? (·.pid == p.pid) = some p := by
  induction visited, pending, pool using below.induct with
  | case1 visited pool => simp
  | case2 visited parent pending pool found pids ih =>
      intro p hMem
      rw [below] at hMem
      rcases List.mem_append.mp hMem with hFound | hLater
      · rw [(mem_withParent.mp ((firstVisits_sublist _ _).subset hFound)).2]
        exact find?_of_mem_firstVisits hFound
      · have hOther := (mem_withoutParent.mp (mem_pool_of_mem_below hLater)).2
        rw [← withParent_withoutParent hOther]
        exact ih p hLater

/-- A parent whose turn came before has no child with the pid of one that is found later. -/
theorem below_earliest (visited pending : List Int32) (pool : List Snapshot) :
    ∀ p ∈ below visited pending pool, ∀ before after,
      pending ++ (below visited pending pool).map (·.pid) =
        before ++ p.attributes.parent :: after →
      p.attributes.parent ∉ before →
      ∀ q ∈ pool, q.attributes.parent ∈ before → q.pid ≠ p.pid := by
  induction visited, pending, pool using below.induct with
  | case1 visited pool => simp
  | case2 visited parent pending pool found pids ih =>
      intro p hMem before after hTurn hFirst q hq hEarlier hSame
      rw [below, List.map_append, List.cons_append, ← List.append_assoc] at hTurn
      rw [below] at hMem
      cases before with
      | nil => simp at hEarlier
      | cons _ before =>
          obtain ⟨rfl, hRest⟩ := List.cons_eq_cons.mp hTurn
          obtain ⟨hOther, hFirst⟩ := not_or.mp (mt List.mem_cons.mpr hFirst)
          have hLater : p ∈ below (pids ++ visited) (pending ++ pids) (withoutParent parent pool) := by
            refine (List.mem_append.mp hMem).resolve_left fun hFound => hOther ?_
            exact (mem_withParent.mp ((firstVisits_sublist _ _).subset hFound)).2
          by_cases hParent : q.attributes.parent = parent
          · -- all children of this parent have been visited with it
            refine pid_notMem_of_mem_below hLater (hSame ▸ List.mem_append.mpr ?_)
            exact (mem_visited_or_mem_firstVisits visited
              (mem_withParent.mpr ⟨hq, hParent⟩)).symm
          · exact ih p hLater before after hRest hFirst q (mem_withoutParent.mpr ⟨hq, hParent⟩)
              ((List.mem_cons.mp hEarlier).resolve_left hParent) hSame

theorem below_siblings (visited pending : List Int32) (pool : List Snapshot) (parent : Int32) :
    ((withParent parent (below visited pending pool)).map (·.pid)).Sublist
      ((withParent parent pool).map (·.pid)).eraseDups := by
  induction visited, pending, pool using below.induct with
  | case1 visited pool => simp [withParent]
  | case2 visited other pending pool found pids ih =>
      rw [below, withParent_append, withParent_firstVisits]
      by_cases hSame : parent = other
      · rw [if_pos hSame, hSame, withParent_below_withoutParent, List.append_nil, pids_firstVisits]
        exact List.filter_sublist
      · rw [if_neg hSame, List.nil_append, ← withParent_withoutParent hSame pool]
        exact ih

end Below

/-- A chain of parents leads back to the root or to what has been found. -/
theorem mem_descendants_of_led {root pid : Int32} {processes : List Snapshot}
    (hLeads : Relation.TransGen (IsParent processes) root pid) :
    pid ∈ root :: (descendants root processes).map (·.pid) := by
  have hStep : ∀ parent child, IsParent processes parent child →
      parent ∈ root :: (descendants root processes).map (·.pid) →
      child ∈ root :: (descendants root processes).map (·.pid) := by
    rintro _ _ ⟨p, hp, rfl, rfl, hOther⟩ hParent
    exact below_closed [root] [root] _ p (List.mem_filter.mpr ⟨hp, by simpa using hOther⟩) hParent
  induction hLeads with
  | single hParent => exact hStep root _ hParent List.mem_cons_self
  | tail hLeads hParent ih => exact hStep _ _ hParent ih

/-- Those of one parent that are not their own parent. -/
theorem withParent_filter (parent : Int32) (processes : List Snapshot) :
    withParent parent (processes.filter fun p => p.attributes.parent != p.pid) =
      (withParent parent processes).filter fun p => p.pid != parent := by
  rw [withParent, withParent, List.filter_filter, List.filter_filter]
  refine List.filter_congr fun p _ => ?_
  by_cases hParent : p.attributes.parent = parent
  · rw [hParent, Bool.and_comm, bne_comm]
  · rw [beq_false_of_ne hParent, Bool.false_and, Bool.and_false]

theorem descendants_breadthFirst (root : Int32) (processes : List Snapshot) :
    BreadthFirst root processes (descendants root processes) where
  reached := by
    refine fun pid => ⟨fun hFound => ?_, fun ⟨hOther, hLeads⟩ => ?_⟩
    · obtain ⟨p, hp, rfl⟩ := List.mem_map.mp hFound
      obtain ⟨start, hStart, hLeads⟩ :=
        below_led processes _ _ _ (fun q hq => by simpa using hq) p hp
      rw [List.mem_singleton.mp hStart] at hLeads
      exact ⟨by simpa using pid_notMem_of_mem_below hp, hLeads⟩
    · exact (List.mem_cons.mp (mem_descendants_of_led hLeads)).resolve_left hOther
  distinct := nodup_below _ _ _
  first := by
    intro p hFound
    have hOwn : p.attributes.parent ≠ p.pid := by
      simpa using (List.mem_filter.mp (mem_pool_of_mem_below hFound)).2
    have hFirst := below_first _ _ _ p hFound
    rw [withParent_filter, List.find?_filter] at hFirst
    rw [← hFirst]
    congr 1
    funext q
    by_cases hSame : q.pid = p.pid
    · simp [hSame, Ne.symm hOwn]
    · simp [hSame]
  rooted := by
    intro before p after hFound
    simpa using below_rooted [root] [root] _ before p after hFound
  generations := below_generations [root] [root] _ (List.nodup_singleton root) (List.Subset.refl _)
  earliest := by
    rintro p hFound before after hTurn earlier hEarlier ⟨q, hq, rfl, hSame, hOwn⟩
    have hNodup : (root :: (descendants root processes).map (·.pid)).Nodup := by
      refine List.nodup_cons.mpr ⟨fun hRoot => ?_, nodup_below _ _ _⟩
      obtain ⟨r, hr, rfl⟩ := List.mem_map.mp hRoot
      exact pid_notMem_of_mem_below hr List.mem_cons_self
    have hFirst : p.attributes.parent ∉ before := by
      rw [hTurn, List.nodup_append] at hNodup
      exact fun hMem => hNodup.2.2 _ hMem _ List.mem_cons_self rfl
    exact below_earliest [root] [root] _ p hFound before after hTurn hFirst q
      (List.mem_filter.mpr ⟨hq, by simpa [hSame] using hOwn⟩) hEarlier hSame
  siblings := by
    intro parent
    refine (below_siblings [root] [root] _ parent).trans ?_
    have hPids : ((withParent parent processes).filter fun p => p.pid != parent).map (·.pid) =
        ((withParent parent processes).map (·.pid)).filter (· != parent) := by
      rw [List.filter_map]
      rfl
    rw [withParent_filter, hPids, eraseDups_filter]
    exact List.filter_sublist

/-- The first generation: the children of the root, if no pid is listed twice. -/
theorem children_eq_withParent {root : Int32} {processes : List Snapshot}
    (hNodup : (processes.map (·.pid)).Nodup) :
    children root processes = withParent root (descendants root processes) ∧
      children root processes <+: descendants root processes := by
  have hOwn : (withParent root (processes.filter fun p => p.attributes.parent != p.pid)).Sublist
      processes := List.filter_sublist.trans List.filter_sublist
  have hFirst : children root processes = firstVisits [root]
      (withParent root (processes.filter fun p => p.attributes.parent != p.pid)) := by
    rw [firstVisits_eq_filter [root] (hNodup.sublist (hOwn.map _)), children, withParent,
      List.filter_filter, List.filter_filter]
    refine List.filter_congr fun p _ => Bool.eq_iff_iff.mpr ?_
    simp only [isChild, Bool.and_eq_true, beq_iff_eq, bne_iff_ne, Bool.not_eq_true',
      List.contains_eq_mem, List.mem_singleton, decide_eq_false_iff_not]
    constructor
    · rintro ⟨rfl, hOther⟩
      exact ⟨⟨hOther, rfl⟩, hOther.symm⟩
    · rintro ⟨⟨hOther, rfl⟩, -⟩
      exact ⟨rfl, hOther⟩
  rw [descendants, below, ← hFirst]
  refine ⟨?_, List.prefix_append _ _⟩
  rw [withParent_append, withParent_below_withoutParent, List.append_nil, hFirst,
    withParent_firstVisits, if_pos rfl]

end Family

namespace Census

variable {κ : Type}

/-- The answer to a query for descendants is the query's answer from all of them, in the one list
that is in breadth-first order; so what the query leaves out still leads on. Without repeated pids
the children are the first generation. -/
theorem descendants_on (census : Census κ) (root : Int32) {host after : Host κ}
    {processes : List Snapshot} (hListed : census.everyProcess.on host = (.ok processes, after)) :
    ∃ found, (census.descendants root .all).on host = (.ok found, after) ∧
      Family.BreadthFirst root processes found ∧
      (∀ other, Family.BreadthFirst root processes other → other = found) ∧
      (∀ query, (census.descendants root query).on host = (.ok (query.apply found), after)) ∧
      (∀ choice, (census.descendants root { choice := some choice, ranking := none, limit := 0 }).on
        host = (.ok (found.filter choice), after)) ∧
      ((processes.map (·.pid)).Nodup → ∃ first,
        (census.children root .all).on host = (.ok first, after) ∧
        first = Family.withParent root found ∧ first <+: found) := by
  have hQuery : ∀ query, (census.descendants root query).on host =
      (.ok (query.apply (Family.descendants root processes)), after) := by
    intro query
    rw [descendants, Run.on_bind, hListed]
    rfl
  have hChildren : (census.children root .all).on host =
      (.ok (Family.children root processes), after) := by
    rw [children, Run.on_bind, hListed]
    rfl
  exact ⟨Family.descendants root processes, hQuery .all,
    Family.descendants_breadthFirst root processes,
    fun _ => (Family.descendants_breadthFirst root processes).unique, hQuery,
    fun choice => hQuery _, fun hNodup => ⟨_, hChildren, Family.children_eq_withParent hNodup⟩⟩

/-- A system that answers one question after the other, whichever process it is asked for. -/
def fleeting : Source (List (Int32 × Attributes)) where
  platform := .unserved
  list := Attempt.call fun answers => (.ok (answers.map (·.1)), answers)
  currentPid := return 1
  attributes _ _ := Run.call fun answers => (answers.head?.map (·.2), answers.tail)
  batch := Source.readEach fun _ _ =>
    Run.call fun answers => (answers.head?.map (·.2), answers.tail)
  invocation _ := return .empty

def fleetingCensus : Census (List (Int32 × Attributes)) where
  source := fleeting
  release := .unknown
  settings := { retention := none, workers := none }
  available := ⟨1, Nat.one_pos⟩

def childOf (parent : Int32) : Attributes :=
  { Attributes.unknown with state := .running, threads := 1, parent }

/-- Processes with the given pids and parents, which answer in that order. -/
def fleetingHost (links : List (Int32 × Int32)) : Host (List (Int32 × Attributes)) where
  kernel := links.map fun link => (link.1, childOf link.2)
  clock := 0
  journal := []

def fleetingSnapshots (links : List (Int32 × Int32)) : List Snapshot :=
  links.map fun link => ⟨link.1, .unknown, childOf link.2, none, none⟩

/-- Pid 1 is a child of its own grandchild 4, and pid 6 its own parent. -/
def cyclicLinks : List (Int32 × Int32) :=
  [(1, 4), (2, 1), (3, 1), (4, 3), (6, 6)]

/-- Pid 2 is a child of the root, and listed as a great-grandchild as well. -/
def repeatedLinks : List (Int32 × Int32) :=
  [(2, 1), (3, 1), (4, 3), (2, 4)]

theorem descendants_on_cyclic_and_repeated :
    ((fleetingCensus.everyProcess.on (fleetingHost cyclicLinks)).1 =
        .ok (fleetingSnapshots cyclicLinks) ∧
      ((fleetingSnapshots cyclicLinks).map (·.pid)).Nodup ∧
      ∃ found first,
        ((fleetingCensus.descendants 1 .all).on (fleetingHost cyclicLinks)).1 = .ok found ∧
        Family.BreadthFirst 1 (fleetingSnapshots cyclicLinks) found ∧
        found.map (·.pid) = [2, 3, 4] ∧
        ((fleetingCensus.children 1 .all).on (fleetingHost cyclicLinks)).1 = .ok first ∧
        first <+: found) ∧
    ((fleetingCensus.everyProcess.on (fleetingHost repeatedLinks)).1 =
        .ok (fleetingSnapshots repeatedLinks) ∧
      ∃ found,
        ((fleetingCensus.descendants 1 .all).on (fleetingHost repeatedLinks)).1 = .ok found ∧
        Family.BreadthFirst 1 (fleetingSnapshots repeatedLinks) found ∧
        (∀ other, Family.BreadthFirst 1 (fleetingSnapshots repeatedLinks) other → other = found) ∧
        found = fleetingSnapshots [(2, 1), (3, 1), (4, 3)]) := by
  have hCyclic : (fleetingCensus.everyProcess.on (fleetingHost cyclicLinks)).1 =
      .ok (fleetingSnapshots cyclicLinks) := by decide +kernel
  have hNodup : ((fleetingSnapshots cyclicLinks).map (·.pid)).Nodup := by decide +kernel
  have hPids : (List.map Snapshot.pid <$>
      ((fleetingCensus.descendants 1 .all).on (fleetingHost cyclicLinks)).1) = .ok [2, 3, 4] := by
    decide +kernel
  have hRepeated : (fleetingCensus.everyProcess.on (fleetingHost repeatedLinks)).1 =
      .ok (fleetingSnapshots repeatedLinks) := by decide +kernel
  have hAnswer : ((fleetingCensus.descendants 1 .all).on (fleetingHost repeatedLinks)).1 =
      .ok (fleetingSnapshots [(2, 1), (3, 1), (4, 3)]) := by decide +kernel
  refine ⟨⟨hCyclic, hNodup, ?_⟩, hRepeated, ?_⟩
  · obtain ⟨found, hFound, hBreadthFirst, -, -, -, hChildren⟩ :=
      descendants_on fleetingCensus 1 (Prod.ext hCyclic rfl)
    obtain ⟨first, hFirst, -, hPrefix⟩ := hChildren hNodup
    rw [hFound] at hPids
    exact ⟨found, first, congrArg Prod.fst hFound, hBreadthFirst, Except.ok.inj hPids,
      congrArg Prod.fst hFirst, hPrefix⟩
  · obtain ⟨found, hFound, hBreadthFirst, hUnique, -, -, -⟩ :=
      descendants_on fleetingCensus 1 (Prod.ext hRepeated rfl)
    rw [hFound] at hAnswer
    exact ⟨found, congrArg Prod.fst hFound, hBreadthFirst, hUnique, Except.ok.inj hAnswer⟩

end Census

end ProcessCensus
