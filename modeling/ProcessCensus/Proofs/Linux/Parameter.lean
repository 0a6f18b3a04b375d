import ProcessCensus.Linux.Parameter
import ProcessCensus.Proofs.Run
import ProcessCensus.Proofs.Text.Split
import ProcessCensus.Proofs.Text.Utf8

/-!
Where kernel parameters are read. A name without a dot or a slash at its start leads to a path below
`/proc/sys`, and none of its components leads up, so nothing that is told under such a name hangs on
files elsewhere. A name that does start with a dot or a slash is a path from the root of the file
system.
-/

namespace ProcessCensus.Linux

open Text

/-- The directory of all kernel parameters. -/
def parameterRoot : Path := [Tree.procName, Utf8.bytes "sys"]

/-- The name does not begin with a dot or a slash. -/
def Relative (name : String) : Prop :=
  name.toList.head? ≠ some '.' ∧ name.toList.head? ≠ some '/'

instance (name : String) : Decidable (Relative name) :=
  inferInstanceAs (Decidable (_ ∧ _))

/-- The name with slashes for its dots. -/
def slashed (name : String) : List Char :=
  name.toList.map fun c => if c = '.' then '/' else c

section Names

variable {name : String}

theorem dot_notMem_slashed (name : String) : '.' ∉ slashed name := by
  intro hMem
  obtain ⟨c, -, hDot⟩ := List.mem_map.mp hMem
  split at hDot
  · cases hDot
  · next hOther => exact hOther hDot

theorem head?_slashed : (slashed name).head? = some '/' ↔ ¬Relative name := by
  rw [slashed, Relative, List.head?_map]
  cases name.toList.head? with
  | none => simp
  | some c => by_cases hDot : c = '.' <;> simp [hDot]

theorem parameterPath_of_relative (hName : Relative name) :
    parameterPath name = "/proc/sys/".toList ++ slashed name :=
  if_neg (mt head?_slashed.mp (not_not.mpr hName))

/-- A name that is not relative spells a path of its own. -/
theorem parameterPath_of_not_relative (hName : ¬Relative name) : parameterPath name = slashed name :=
  if_pos (head?_slashed.mpr hName)

/-- No component of a parameter's path leads up or nowhere: none has a dot in it. -/
theorem dot_notMem_component {component : Bytes}
    (hMem : component ∈ Location.componentsOf (Utf8.encode (slashed name))) : 0x2e ∉ component := by
  intro hDot
  have hText := mem_of_mem_parts (List.mem_of_mem_filter hMem) hDot
  exact dot_notMem_slashed name ((@Utf8.ascii_mem_encode '.' _ (by decide)).mp hText)

theorem componentsOf_root (rest : Bytes) :
    Location.componentsOf (Utf8.encode "/proc/sys/".toList ++ rest) =
      parameterRoot ++ Location.componentsOf rest := by
  have hRoot : Utf8.encode "/proc/sys/".toList = ([] :: parameterRoot).flatMap (· ++ [0x2f]) := by
    decide
  have hFree : ∀ component ∈ [] :: parameterRoot, (0x2f : UInt8) ∉ component := by decide
  rw [Location.componentsOf, hRoot, parts_flatMap_append hFree, List.filter_append]
  rfl

theorem components_of_relative (hName : Relative name) :
    (Location.ofText (parameterPath name)).components =
      parameterRoot ++ Location.componentsOf (Utf8.encode (slashed name)) := by
  rw [parameterPath_of_relative hName, Location.ofText, Location.ofBytes, Utf8.encode_append]
  exact componentsOf_root _

/-- Taken as a path from the root of the file system, the name leads to the parameters. -/
def SpellsBelow (name : String) : Prop :=
  parameterRoot <+: Location.componentsOf (Utf8.encode (slashed name))

instance (name : String) : Decidable (SpellsBelow name) :=
  inferInstanceAs (Decidable (_ <+: _))

/-- A component by which a walk goes down, neither staying nor going up. -/
def Downward (component : Bytes) : Prop :=
  component ≠ Utf8.encode ['.'] ∧ component ≠ Utf8.encode ['.', '.']

theorem downward_of_dot_notMem {component : Bytes} (hDot : 0x2e ∉ component) :
    Downward component := by
  constructor
  all_goals
    rintro rfl
    exact hDot (by decide)

/-- The path that is opened under the name goes down from the directory of all parameters. -/
def Below (name : String) : Prop :=
  ∃ rest, (Location.ofText (parameterPath name)).components = parameterRoot ++ rest ∧
    ∀ component ∈ rest, Downward component

theorem below_of_relative (hName : Relative name) : Below name :=
  ⟨_, components_of_relative hName, fun _ hMem => downward_of_dot_notMem (dot_notMem_component hMem)⟩

/-- Exactly these names lead below `/proc/sys`. -/
theorem below_iff : Below name ↔ Relative name ∨ SpellsBelow name := by
  refine ⟨fun ⟨rest, hPath, _⟩ => ?_, fun hName => ?_⟩
  · refine or_iff_not_imp_left.mpr fun hName => ⟨rest, ?_⟩
    rw [parameterPath_of_not_relative hName] at hPath
    exact hPath.symm
  · refine (em (Relative name)).elim below_of_relative fun hOwn => ?_
    obtain ⟨rest, hRest⟩ := hName.resolve_left hOwn
    refine ⟨rest, ?_, fun component hMem =>
      downward_of_dot_notMem (@dot_notMem_component name component ?_)⟩
    · rw [parameterPath_of_not_relative hOwn]
      exact hRest.symm
    · exact hRest ▸ List.mem_append_right parameterRoot hMem

example : SpellsBelow ".proc.sys.kernel.pid_max" := by decide

end Names

section Trees

variable {root : Path} {first second : Tree}

/-- Below the directory both trees have the same nodes, and no links. -/
structure Tree.AgreeBelow (root : Path) (first second : Tree) : Prop where
  same : ∀ path, root <+: path → first.nodeAt path = second.nodeAt path
  unlinked : ∀ path target, root <+: path → first.nodeAt path ≠ some (.link target)

/-- Links matter only when they are met. -/
theorem Tree.exists_walk_eq (tree : Tree) (links : Nat) :
    ∃ follow, tree.walk links = tree.walkTo follow := by
  cases links <;> exact ⟨_, rfl⟩

/-- In both trees a walk comes to the same end, and if it reaches a node, then one below `root`. -/
def Tree.Confines (root : Path) (first second : Tree) (links : Nat) (here rest : Path)
    (asDirectory : Bool) : Prop :=
  first.walk links here rest asDirectory = second.walk links here rest asDirectory ∧
    ∀ path, first.walk links here rest asDirectory = .ok path → root <+: path

/-- A walk stays below `root` once it steps there. -/
theorem Tree.AgreeBelow.step (hAgree : Tree.AgreeBelow root first second) {links : Nat}
    {here rest : Path} {name : Bytes} {asDirectory : Bool} (hHere : root <+: here ++ [name])
    (hName : Downward name)
    (hRest : Tree.Confines root first second links (here ++ [name]) rest asDirectory) :
    Tree.Confines root first second links here (name :: rest) asDirectory := by
  obtain ⟨follow, hFirst⟩ := first.exists_walk_eq links
  obtain ⟨follow', hSecond⟩ := second.exists_walk_eq links
  rw [Tree.Confines, hFirst, hSecond] at hRest ⊢
  rw [Tree.walkTo, Tree.walkTo, if_neg hName.1, if_neg hName.2, if_neg hName.1, if_neg hName.2,
    ← hAgree.same _ hHere]
  split
  case isTrue => exact ⟨rfl, fun path hPath => by cases hPath⟩
  case isFalse =>
    rcases hNode : first.nodeAt (here ++ [name]) with _ | _ | target | _
    · exact ⟨rfl, fun path hPath => by cases hPath⟩
    · refine ⟨rfl, fun path hPath => ?_⟩
      dsimp only at hPath
      split at hPath
      · cases hPath
        exact hHere
      · cases hPath
    · exact absurd hNode (hAgree.unlinked _ target hHere)
    · exact hRest

theorem Tree.AgreeBelow.walk (hAgree : Tree.AgreeBelow root first second) (links : Nat)
    (asDirectory : Bool) {rest : Path} (hRest : ∀ name ∈ rest, Downward name) {here : Path}
    (hHere : root <+: here) : Tree.Confines root first second links here rest asDirectory := by
  induction rest generalizing here with
  | nil =>
      obtain ⟨follow, hFirst⟩ := first.exists_walk_eq links
      obtain ⟨follow', hSecond⟩ := second.exists_walk_eq links
      rw [Tree.Confines, hFirst, hSecond]
      exact ⟨rfl, fun path hPath => Except.ok.inj hPath ▸ hHere⟩
  | cons name rest ih =>
      have hNext : root <+: here ++ [name] := hHere.trans (List.prefix_append here [name])
      exact hAgree.step hNext (hRest name List.mem_cons_self)
        (ih (fun other hMem => hRest other (List.mem_cons_of_mem name hMem)) hNext)

/-- From the root of the file system the way to the parameters is the same in all trees: `/proc` is a
directory. -/
theorem Tree.walk_proc (tree : Tree) (links : Nat) (rest : Path) (asDirectory : Bool) :
    tree.walk links [] (Tree.procName :: rest) asDirectory =
      tree.walk links [Tree.procName] rest asDirectory := by
  obtain ⟨follow, hWalk⟩ := tree.exists_walk_eq links
  rw [hWalk, Tree.walkTo, if_neg (by decide), if_neg (by decide), if_neg (by decide)]
  rfl

theorem Tree.AgreeBelow.walk_root (hAgree : Tree.AgreeBelow parameterRoot first second)
    (links : Nat) (asDirectory : Bool) {rest : Path} (hRest : ∀ name ∈ rest, Downward name) :
    Tree.Confines parameterRoot first second links [] (parameterRoot ++ rest) asDirectory := by
  have hSys : Downward (Utf8.bytes "sys") := downward_of_dot_notMem (by decide)
  rw [Tree.Confines, parameterRoot, List.cons_append, Tree.walk_proc, Tree.walk_proc]
  exact hAgree.step (List.prefix_refl _) hSys
    (hAgree.walk links asDirectory hRest (List.prefix_refl _))

/-- No parameter is taken for the executable of a process. -/
theorem Tree.imageOf_parameter {location : Location} {rest : Path}
    (hPath : location.components = parameterRoot ++ rest) : Tree.imageOf location = location := by
  have hSys : Tree.isNumber (Utf8.bytes "sys") = false := by decide
  rw [Tree.imageOf, hPath]
  rcases rest with _ | ⟨file, _ | ⟨next, rest⟩⟩
  · rfl
  · exact if_neg fun hNumber => by rw [hSys] at hNumber; cases hNumber.1
  · rfl

/-- In both trees a path that goes down to a parameter leads to the same end, and if it leads to a
node, then to one below `/proc/sys`. -/
theorem Tree.AgreeBelow.resolve (hAgree : Tree.AgreeBelow parameterRoot first second)
    {location : Location} {rest : Path} (hPath : location.components = parameterRoot ++ rest)
    (hRest : ∀ name ∈ rest, Downward name) :
    first.resolve location = second.resolve location ∧
      ∀ path, first.resolve location = .ok path → parameterRoot <+: path := by
  rw [Tree.resolve, Tree.resolve, hPath]
  split
  · exact ⟨rfl, fun path hLong => by cases hLong⟩
  · exact hAgree.walk_root Tree.maxLinks location.asDirectory hRest

theorem Tree.AgreeBelow.read (hAgree : Tree.AgreeBelow parameterRoot first second)
    {location : Location} {rest : Path} (hPath : location.components = parameterRoot ++ rest)
    (hRest : ∀ name ∈ rest, Downward name) : first.read location = second.read location := by
  obtain ⟨hSame, hBelow⟩ := hAgree.resolve hPath hRest
  rw [Tree.read, Tree.read, Tree.imageOf_parameter hPath, ← hSame]
  split
  · rfl
  · cases hResolve : first.resolve location with
    | error code => rfl
    | ok path =>
        dsimp only
        rw [hAgree.same path (hBelow path hResolve)]

theorem Tree.AgreeBelow.readText (hAgree : Tree.AgreeBelow parameterRoot first second)
    {name : String} (hName : Below name) :
    first.readText (.ofText (parameterPath name)) =
      second.readText (.ofText (parameterPath name)) := by
  obtain ⟨rest, hPath, hRest⟩ := hName
  rw [Tree.readText, Tree.readText, hAgree.read hPath hRest]

/-- What stands outside `/proc/sys` does not matter for the nodes there. -/
theorem Tree.nodeAt_parameter {others shared : List (Path × Node)}
    (hOthers : ∀ entry ∈ others, entry.1.head? ≠ some (Utf8.bytes "sys")) (rest : Path) :
    (Tree.mk (others ++ shared)).nodeAt (parameterRoot ++ rest) =
      shared.lookup (Utf8.bytes "sys" :: rest) := by
  have hNone : others.lookup (Utf8.bytes "sys" :: rest) = none := by
    refine List.lookup_eq_none_iff.mpr fun entry hMem => ?_
    exact bne_iff_ne.mpr fun hKey => hOthers entry hMem (hKey ▸ rfl)
  change (others ++ shared).lookup (Utf8.bytes "sys" :: rest) = _
  rw [List.lookup_append, hNone, Option.none_or]

theorem Tree.agreeBelow_of_entries {others others' shared : List (Path × Node)}
    (hOthers : ∀ entry ∈ others, entry.1.head? ≠ some (Utf8.bytes "sys"))
    (hOthers' : ∀ entry ∈ others', entry.1.head? ≠ some (Utf8.bytes "sys"))
    (hShared : ∀ entry ∈ shared, ∀ target, entry.2 ≠ .link target) :
    Tree.AgreeBelow parameterRoot ⟨others ++ shared⟩ ⟨others' ++ shared⟩ where
  same := by
    rintro path ⟨rest, rfl⟩
    rw [Tree.nodeAt_parameter hOthers, Tree.nodeAt_parameter hOthers']
  unlinked := by
    rintro path target ⟨rest, rfl⟩ hLink
    rw [Tree.nodeAt_parameter hOthers] at hLink
    obtain ⟨before, after, rfl, -⟩ := List.lookup_eq_some_iff.mp hLink
    exact hShared _ (List.mem_append_right before List.mem_cons_self) target rfl

end Trees

/-- The hosts have written the same notices, and their trees agree on the parameters. All else may
differ. -/
structure AgreeOnParameters (first second : Host Kernel) : Prop where
  journal : first.journal = second.journal
  tree : Tree.AgreeBelow parameterRoot first.kernel.tree second.kernel.tree

theorem AgreeOnParameters.note (notice : Notice) :
    Run.Mirrors AgreeOnParameters (Run.note notice) (Run.note notice) :=
  fun _ _ hAgree => ⟨rfl, congrArg (notice :: ·) hAgree.journal, hAgree.tree⟩

/-- The name leads below `/proc/sys`, and what is told of its parameter, and noted of it, hangs on
nothing but the files there. -/
structure Confined (name : String) : Prop where
  below : Below name
  read : Run.Mirrors AgreeOnParameters (readParameter name).outcome (readParameter name).outcome
  text : ∀ fallback, Run.Mirrors AgreeOnParameters (textParameter name fallback)
    (textParameter name fallback)
  long : ∀ fallback, Run.Mirrors AgreeOnParameters (longParameter name fallback)
    (longParameter name fallback)
  int : ∀ fallback, Run.Mirrors AgreeOnParameters (intParameter name fallback)
    (intParameter name fallback)

section Confinement

variable {name : String}

/-- What a parameter is read as, from the tree. -/
theorem readParameter_on (name : String) (host : Host Kernel) :
    (readParameter name).outcome.on host =
      (.ok (match host.kernel.tree.readText (.ofText (parameterPath name)) with
        | .ok value => .ok (String.ofList (trimEnd value))
        | .error refusal => .error (.refused "sysctl" refusal)), host) := by
  rw [readParameter, Attempt.on_bind_of_eq (Attempt.on_lift_of_eq (Run.on_kernel host))]
  cases host.kernel.tree.readText (.ofText (parameterPath name)) <;> rfl

theorem Below.read (hName : Below name) :
    Run.Mirrors AgreeOnParameters (readParameter name).outcome (readParameter name).outcome := by
  intro first second hAgree
  rw [readParameter_on, readParameter_on, hAgree.tree.readText hName]
  exact ⟨rfl, hAgree⟩

theorem Below.text (hName : Below name) (fallback : String) :
    Run.Mirrors AgreeOnParameters (textParameter name fallback) (textParameter name fallback) := by
  refine hName.read.bind fun outcome => ?_
  cases outcome with
  | ok value => exact .pure value
  | error failure => exact (AgreeOnParameters.note _).bind fun _ => .pure fallback

theorem Below.long (hName : Below name) (fallback : Int64) :
    Run.Mirrors AgreeOnParameters (longParameter name fallback) (longParameter name fallback) := by
  have hMissing := (AgreeOnParameters.note (.parameterDefaulted name fallback)).bind fun _ =>
    .pure fallback
  refine hName.read.bind fun outcome => ?_
  cases outcome with
  | error failure => exact hMissing
  | ok value =>
      dsimp only
      cases signed? Int64.size (trim value.toList) with
      | none => exact hMissing
      | some number => exact .pure (Int64.ofInt number)

theorem Below.confined (hName : Below name) : Confined name where
  below := hName
  read := hName.read
  text := hName.text
  long := hName.long
  int fallback := (hName.long fallback.toInt64).bind fun _ => .pure _

/-- Under a name that does not begin with a dot or a slash, or leads to the parameters as a path of its
own, nothing outside `/proc/sys` is opened or told. The release of the kernel is told under such a
name. -/
theorem parameters_confined (hName : Relative name ∨ SpellsBelow name) :
    Confined name ∧ Run.Mirrors AgreeOnParameters releaseText.outcome releaseText.outcome :=
  ⟨(below_iff.mpr hName).confined, (below_of_relative (by decide)).read⟩

end Confinement

/-- A system with one parameter and one process, which has this content in a file of its own. -/
def commHost (comm : Bytes) : Host Kernel where
  kernel := {
    tree := ⟨[([[0x37]], .directory), ([[0x37], Utf8.bytes "comm"], .file comm)] ++
      [([Utf8.bytes "sys"], .directory), ([Utf8.bytes "sys", Utf8.bytes "kernel"], .directory),
        ([Utf8.bytes "sys", Utf8.bytes "kernel", Utf8.bytes "pid_max"],
          .file (Utf8.bytes "32768\n"))]⟩
    users := []
    groups := []
    bootTime := .settled 1000
    clockTicks := 100
    pageSize := 4096
    ownPid := 1 }
  clock := 0
  journal := []

theorem agree_commHost (first second : Bytes) :
    AgreeOnParameters (commHost first) (commHost second) where
  journal := rfl
  tree := Tree.agreeBelow_of_entries (by simp; decide) (by simp; decide) (by simp)

theorem parameters_confined_pid_max :
    Relative "kernel.pid_max" ∧ Confined "kernel.pid_max" ∧
      ((readParameter "kernel.pid_max").outcome.on (commHost [])).1 = .ok (.ok "32768") := by
  have hRelative : Relative "kernel.pid_max" := by decide
  refine ⟨hRelative, (parameters_confined (.inl hRelative)).1, ?_⟩
  have hPath : parameterPath "kernel.pid_max" = "/proc/sys/kernel/pid_max".toList := by decide
  rw [readParameter_on, hPath]
  rfl

/-- Under a name that begins with a dot, a file of a process is told as a parameter. -/
theorem dotted_name_tells_outside :
    ¬Below ".proc.7.comm" ∧
      AgreeOnParameters (commHost (Utf8.bytes "public\n")) (commHost (Utf8.bytes "secret\n")) ∧
      ((readParameter ".proc.7.comm").outcome.on (commHost (Utf8.bytes "public\n"))).1 =
        .ok (.ok "public") ∧
      ((readParameter ".proc.7.comm").outcome.on (commHost (Utf8.bytes "secret\n"))).1 =
        .ok (.ok "secret") :=
  ⟨fun hBelow => absurd (below_iff.mp hBelow) (by decide), agree_commHost _ _, by rfl, by rfl⟩

end ProcessCensus.Linux
