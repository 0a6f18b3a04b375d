import ProcessCensus.Snapshot

/-!
Children and further descendants in a list of processes. Pids may occur several times and parents
may form cycles: a system that changes while it is listed gives such lists.
-/

namespace ProcessCensus.Family

/-- Whether the process is a child of `parent`. Nobody is a child of itself. -/
def isChild (parent : Int32) (process : Snapshot) : Bool :=
  process.attributes.parent == parent && process.pid != parent

/-- The children of `parent`. -/
def children (parent : Int32) (processes : List Snapshot) : List Snapshot :=
  processes.filter (isChild parent)

/-- The first process of each pid that is not among the `visited` ones. -/
def firstVisits (visited : List Int32) : List Snapshot → List Snapshot
  | [] => []
  | p :: rest =>
    if visited.contains p.pid then firstVisits visited rest
    else p :: firstVisits (p.pid :: visited) rest

theorem length_firstVisits_le (visited : List Int32) (processes : List Snapshot) :
    (firstVisits visited processes).length ≤ processes.length := by
  induction processes generalizing visited with
  | nil => simp [firstVisits]
  | cons p rest ih =>
    unfold firstVisits
    split
    · exact Nat.le_succ_of_le (ih visited)
    · simpa using ih (p.pid :: visited)

/-- The processes with the given parent. -/
def withParent (parent : Int32) (processes : List Snapshot) : List Snapshot :=
  processes.filter (·.attributes.parent == parent)

/-- The processes with another parent. -/
def withoutParent (parent : Int32) (processes : List Snapshot) : List Snapshot :=
  processes.filter fun p => !(p.attributes.parent == parent)

theorem length_withParent_add (parent : Int32) (processes : List Snapshot) :
    (withParent parent processes).length + (withoutParent parent processes).length =
      processes.length := by
  induction processes with
  | nil => rfl
  | cons p rest ih =>
    simp only [withParent, withoutParent] at ih ⊢
    cases h : p.attributes.parent == parent <;> simp [h] <;> omega

/-- The descendants still to be found: those of the `pending` pids among the processes of the
`pool`, where pids that have been `visited` do not count again. The processes with one parent leave
the pool together. -/
def below (visited : List Int32) : (pending : List Int32) → (pool : List Snapshot) → List Snapshot
  | [], _ => []
  | parent :: pending, pool =>
    let found := firstVisits visited (withParent parent pool)
    let pids := found.map (·.pid)
    found ++ below (pids ++ visited) (pending ++ pids) (withoutParent parent pool)
termination_by pending pool => pending.length + pool.length
decreasing_by
  have total := length_withParent_add parent pool
  have bound := length_firstVisits_le visited (withParent parent pool)
  simp only [List.length_append, List.length_map, List.length_cons]
  omega

/-- The children of `root`, their children and so on: each pid once, the nearer generations first.
Processes that are their own parent are nobody's descendants. -/
def descendants (root : Int32) (processes : List Snapshot) : List Snapshot :=
  below [root] [root] (processes.filter fun p => p.attributes.parent != p.pid)

end ProcessCensus.Family
