import ProcessCensus.Proofs.Linux.Lookup

/-!
What a process calls itself is one of the things told about it, and it has no say in the others. Two
systems are compared that differ in nothing but the name in one status line. As long as both names are
proper UTF-8, or neither is, all that is told is the same but for the name. A name that is not proper
UTF-8 hides its process.
-/

namespace ProcessCensus.Linux

open Text

/-- The trees differ in nothing but what the file at the path contains. -/
structure Tree.DiffersAt (path : Path) (first second : Tree) : Prop where
  names : first.entries.map (·.1) = second.entries.map (·.1)
  first_file : ∃ content, first.nodeAt path = some (.file content)
  second_file : ∃ content, second.nodeAt path = some (.file content)
  elsewhere : ∀ other, other ≠ path → first.nodeAt other = second.nodeAt other

namespace Tree.DiffersAt

variable {path : Path} {first second : Tree} (hDiffers : DiffersAt path first second)

include hDiffers

theorem nodeAt_cases (other : Path) :
    first.nodeAt other = second.nodeAt other ∨
      ∃ content content', first.nodeAt other = some (.file content) ∧
        second.nodeAt other = some (.file content') := by
  by_cases hPath : other = path
  case pos =>
    obtain ⟨content, hFirst⟩ := hDiffers.first_file
    obtain ⟨content', hSecond⟩ := hDiffers.second_file
    exact .inr ⟨content, content', hPath ▸ hFirst, hPath ▸ hSecond⟩
  case neg => exact .inl (hDiffers.elsewhere other hPath)

theorem nodeAt_file {other : Path} {content : Bytes}
    (hFirst : first.nodeAt other = some (.file content)) :
    ∃ content', second.nodeAt other = some (.file content') := by
  rcases hDiffers.nodeAt_cases other with hSame | ⟨_, content', _, hSecond⟩
  · exact ⟨content, hSame.symm.trans hFirst⟩
  · exact ⟨content', hSecond⟩

theorem nodeAt_eq {other : Path} {node : Option Node} (hFirst : first.nodeAt other = node)
    (hNode : ∀ content, node ≠ some (.file content)) : second.nodeAt other = node := by
  rcases hDiffers.nodeAt_cases other with hSame | ⟨content, _, hFile, _⟩
  · exact hSame.symm.trans hFirst
  · exact absurd (hFirst.symm.trans hFile) (hNode content)

/-- On the way to a node it only matters whether there is a file, not what it contains. -/
theorem walkTo (follow : Path → Path → Bool → Except Int32 Path) (here rest : Path)
    (asDirectory : Bool) :
    first.walkTo follow here rest asDirectory = second.walkTo follow here rest asDirectory := by
  fun_induction Tree.walkTo first follow here rest asDirectory
  case case1 => rw [Tree.walkTo]
  case case2 ih => rw [Tree.walkTo, if_pos rfl, ih]
  case case3 hDots ih => rw [Tree.walkTo, if_neg hDots, if_pos rfl, ih]
  case case4 hDot hDots hLong => rw [Tree.walkTo, if_neg hDot, if_neg hDots, if_pos hLong]
  case case5 hDot hDots hLong hNode =>
    have hSecond := hDiffers.nodeAt_eq hNode fun _ hFile => by cases hFile
    rw [Tree.walkTo, if_neg hDot, if_neg hDots, if_neg hLong, hSecond]
  case case6 hDot hDots hLong hNode ih =>
    have hSecond := hDiffers.nodeAt_eq hNode fun _ hFile => by cases hFile
    rw [Tree.walkTo, if_neg hDot, if_neg hDots, if_neg hLong, hSecond]
    exact ih
  case case7 hDot hDots hLong content hNode hLast =>
    obtain ⟨_, hSecond⟩ := hDiffers.nodeAt_file hNode
    rw [Tree.walkTo, if_neg hDot, if_neg hDots, if_neg hLong, hSecond]
    exact (if_pos hLast).symm
  case case8 hDot hDots hLong content hNode hLast =>
    obtain ⟨_, hSecond⟩ := hDiffers.nodeAt_file hNode
    rw [Tree.walkTo, if_neg hDot, if_neg hDots, if_neg hLong, hSecond]
    exact (if_neg hLast).symm
  case case9 hDot hDots hLong target hNode start next =>
    have hSecond := hDiffers.nodeAt_eq hNode fun _ hFile => by cases hFile
    rw [Tree.walkTo, if_neg hDot, if_neg hDots, if_neg hLong, hSecond]

theorem walk (links : Nat) (here rest : Path) (asDirectory : Bool) :
    first.walk links here rest asDirectory = second.walk links here rest asDirectory := by
  induction links generalizing here rest asDirectory with
  | zero => exact hDiffers.walkTo _ here rest asDirectory
  | succ links ih =>
      have hFollow : first.walk links = second.walk links :=
        funext fun here => funext fun rest => funext fun asDirectory => ih here rest asDirectory
      rw [Tree.walk, Tree.walk, ← hFollow]
      exact hDiffers.walkTo _ here rest asDirectory

theorem resolve (location : Location) : first.resolve location = second.resolve location := by
  rw [Tree.resolve, Tree.resolve, hDiffers.walk]

theorem readLink (location : Location) : first.readLink location = second.readLink location := by
  rw [Tree.readLink, Tree.readLink, hDiffers.walk]
  split
  case h_1 directory _ =>
    rcases hDiffers.nodeAt_cases (directory ++ location.components.getLast?.toList) with
      hSame | ⟨content, content', hFirst, hSecond⟩
    · rw [hSame]
    · rw [hFirst, hSecond]
  case h_2 => rfl

theorem list (location : Location) : first.list location = second.list location := by
  rw [Tree.list, Tree.list, hDiffers.resolve]
  split
  case h_1 there _ =>
    have hNames : first.namesIn there = second.namesIn there := by
      rw [namesIn, namesIn, hDiffers.names]
    rw [hNames]
    rcases hDiffers.nodeAt_cases there with hSame | ⟨content, content', hFirst, hSecond⟩
    · rw [hSame]
    · rw [hFirst, hSecond]
      rfl
  case h_2 => rfl

/-- A location that leads elsewhere reads the same. -/
theorem read {location : Location} (hApart : first.resolve (imageOf location) ≠ .ok path) :
    first.read location = second.read location := by
  rw [Tree.read, Tree.read, ← hDiffers.resolve]
  split
  · rfl
  · cases hPath : first.resolve (imageOf location) with
    | error code => rfl
    | ok other =>
        simp only [hDiffers.elsewhere other fun hEq => hApart (hPath.trans (congrArg Except.ok hEq))]

theorem readText {location : Location} (hApart : first.resolve (imageOf location) ≠ .ok path) :
    first.readText location = second.readText location := by
  rw [Tree.readText, Tree.readText, hDiffers.read hApart]

end Tree.DiffersAt

/-- The files that are read for a process, other than its status line. -/
def Tree.besides (pid : Int32) : List Location :=
  [.ofProcess pid "status", .ofProcess pid "exe", .ofProcess pid "io", .ofText "/proc/stat".toList]

/-- The trees differ in nothing but the status line of one process, and none of the other files that
are read for the process is that one under another name. -/
structure Tree.Renamed (pid : Int32) (path : Path) (first second : Tree) : Prop
    extends Tree.DiffersAt path first second where
  apart : ∀ location ∈ Tree.besides pid, first.resolve (imageOf location) ≠ .ok path

section

variable {pid : Int32} {path : Path} {first second : Tree}

theorem Tree.Renamed.readings (hRenamed : Tree.Renamed pid path first second) :
    second.readings pid =
      { first.readings pid with stat := second.readText (.ofProcess pid "stat") } := by
  have hStatus := hRenamed.readText (hRenamed.apart (.ofProcess pid "status") (by simp [besides]))
  have hImage := hRenamed.read (hRenamed.apart (.ofProcess pid "exe") (by simp [besides]))
  have hIo := hRenamed.readText (hRenamed.apart (.ofProcess pid "io") (by simp [besides]))
  simp only [Tree.readings, hStatus, hImage, hIo, hRenamed.readLink, hRenamed.list]

theorem Tree.Renamed.bootSeconds (hRenamed : Tree.Renamed pid path first second) :
    first.bootSeconds = second.bootSeconds := by
  rw [Tree.bootSeconds, Tree.bootSeconds, hRenamed.readText (hRenamed.apart _ (by simp [besides]))]

end

/-- The attributes without the name. -/
def unnamed (a : Attributes) : Attributes :=
  { a with name := "" }

/-- The name is not looked at for anything but the name. -/
theorem resolve_unnamed (pid : Int32) (readings : Readings) {line line' number name name' : List Char}
    {fields : List (List Char)} (hFirst : Stat.split? line = some (number :: name :: fields))
    (hSecond : Stat.split? line' = some (number :: name' :: fields)) :
    Attempt.Alike unnamed (resolve pid { readings with stat := .ok line })
      (resolve pid { readings with stat := .ok line' }) := by
  rw [resolve, resolve]
  simp only [hFirst, hSecond, pure_bind, Attempt.throw_bind]
  refine Attempt.alike_bind _ fun threads => ?_
  split
  case isTrue => rfl
  cases (Listing.ofText (readings.status.getD [])).pid? "Tgid"
  case' some => dsimp only; split
  case some.isTrue => rfl
  -- What is left is the same whether the owner is named or not.
  all_goals
    iterate 14 refine Attempt.alike_bind _ fun _ => ?_
    rfl

/-- A status line with a command name in its parentheses. -/
def Stat.record (before name after : Bytes) : Bytes :=
  before ++ 0x28 :: (name ++ 0x29 :: after)

theorem Stat.decode?_record (before name after : Bytes) :
    Utf8.decode? (record before name after) = (Utf8.decode? before).bind fun before =>
      (Utf8.decode? name).bind fun name =>
        (Utf8.decode? after).map fun after => before ++ '(' :: (name ++ ')' :: after) := by
  rw [record, Utf8.decode?_append_cons (by decide), Utf8.decode?_append_cons (by decide)]
  cases Utf8.decode? name <;> cases Utf8.decode? after <;> rfl

theorem Stat.textOf_record_of_none {name : Bytes} (hName : Utf8.decode? name = none)
    (before after : Bytes) : textOf (record before name after) = .error .unspecified := by
  rw [textOf, decode?_record, hName]
  cases Utf8.decode? before <;> rfl

/-- Either what is around the name is no text, or the line comes apart in the same way for every name
that is text. -/
theorem Stat.textOf_record {before after : Bytes} (hBefore : 0x28 ∉ before) (hAfter : 0x29 ∉ after) :
    (∀ name, textOf (record before name after) = .error .unspecified) ∨
      ∃ number fields, ∀ {name : Bytes} {command : List Char}, Utf8.decode? name = some command →
        ∃ line, textOf (record before name after) = .ok line ∧
          split? line = some (number :: command :: fields) := by
  cases hFirst : Utf8.decode? before with
  | none =>
      refine .inl fun name => ?_
      rw [textOf, decode?_record, hFirst]
      rfl
  | some first =>
      cases hLast : Utf8.decode? after with
      | none =>
          refine .inl fun name => ?_
          rw [textOf, decode?_record, hFirst, hLast]
          cases Utf8.decode? name <;> rfl
      | some last =>
          -- Decoding makes no parentheses, so those around the name are still the outermost.
          have hOpening : '(' ∉ first := fun hMem =>
            hBefore (Utf8.mem_of_mem_decode? hFirst hMem (by decide))
          have hClosing : ')' ∉ last := fun hMem =>
            hAfter (Utf8.mem_of_mem_decode? hLast hMem (by decide))
          refine .inr ⟨trim first, words last, fun {name command} hName => ?_⟩
          refine ⟨first ++ '(' :: (command ++ ')' :: last), ?_, split?_eq hOpening hClosing⟩
          rw [textOf, decode?_record, hFirst, hName, hLast]
          rfl

/-- What the files and links of a process say when its status line is this record. -/
def Readings.named (readings : Readings) (before name after : Bytes) : Readings :=
  { readings with stat := textOf (Stat.record before name after) }

section Record

variable {before after : Bytes} (hBefore : 0x28 ∉ before) (hAfter : 0x29 ∉ after) (pid : Int32)
  (readings : Readings)

include hBefore hAfter

theorem resolve_named_certain {base : Host Kernel} {trees : Tree → Prop} (name : Bytes) :
    Run.Certain (Standing base trees) (resolve pid (readings.named before name after)).outcome := by
  refine resolve_certain pid fun line (hLine : textOf _ = .ok line) => ?_
  rw [← Stat.split?_eq_none_iff]
  rcases Stat.textOf_record hBefore hAfter with hNone | ⟨number, fields, hSome⟩
  · rw [hNone] at hLine
    cases hLine
  · cases hName : Utf8.decode? name with
    | none =>
        rw [Stat.textOf_record_of_none hName] at hLine
        cases hLine
    | some command =>
        obtain ⟨line, hText, hSplit⟩ := hSome hName
        rw [hText] at hLine
        cases hLine
        rw [hSplit]
        exact Option.some_ne_none _

theorem resolve_named_alike {name other : Bytes}
    (hNames : (Utf8.decode? name).isSome = (Utf8.decode? other).isSome) :
    Attempt.Alike unnamed (resolve pid (readings.named before name after))
      (resolve pid (readings.named before other after)) := by
  rw [Readings.named, Readings.named]
  rcases Stat.textOf_record hBefore hAfter with hNone | ⟨number, fields, hSome⟩
  · rw [hNone, hNone]
    exact .refl _ _
  · cases hName : Utf8.decode? name with
    | none =>
        have hOther : Utf8.decode? other = none := by simpa [hName] using hNames.symm
        rw [Stat.textOf_record_of_none hName, Stat.textOf_record_of_none hOther]
        exact .refl _ _
    | some command =>
        rw [hName] at hNames
        obtain ⟨command', hOther⟩ := Option.isSome_iff_exists.mp hNames.symm
        obtain ⟨line, hLine, hSplit⟩ := hSome hName
        obtain ⟨line', hLine', hSplit'⟩ := hSome hOther
        rw [hLine, hLine']
        exact resolve_unnamed pid readings hSplit hSplit'

end Record

/-- Nothing is told of a process whose name is no text. -/
theorem resolve_named_hidden {name : Bytes} (hName : Utf8.decode? name = none) (pid : Int32)
    (readings : Readings) (before after : Bytes) (host : Host Kernel) :
    (((resolve pid (readings.named before name after)).orNote (.processUnreadable pid)).on host).1 =
      .ok none := by
  rw [Readings.named, Stat.textOf_record_of_none hName, resolve, Attempt.on_orNote]
  rfl

theorem Tree.readings_eq_named {tree : Tree} {pid : Int32} {before name after : Bytes}
    (hRead : tree.read (.ofProcess pid "stat") = .ok (Stat.record before name after)) :
    tree.readings pid = (tree.readings pid).named before name after := by
  rw [Readings.named, ← readText_eq hRead, readings]

/-- The host with other files. -/
def showing (host : Host Kernel) (tree : Tree) : Host Kernel :=
  { host with kernel := { host.kernel with tree } }

/-- Two systems that differ in nothing but the bytes between the first opening and the last closing
parenthesis of one status line have the same to tell about that process but for its name, unless only
one of the two names is proper UTF-8. A name that is none hides the process. -/
theorem attributes_of_renamed {host : Host Kernel} {pid : Int32} {path : Path} {second : Tree}
    (hRenamed : Tree.Renamed pid path host.kernel.tree second) {before after name other : Bytes}
    (hBefore : 0x28 ∉ before) (hAfter : 0x29 ∉ after)
    (hFirst : host.kernel.tree.read (.ofProcess pid "stat") = .ok (Stat.record before name after))
    (hSecond : second.read (.ofProcess pid "stat") = .ok (Stat.record before other after))
    (release : Release) :
    ∃ told told', ((source.attributes pid release).on host).1 = .ok told ∧
      ((source.attributes pid release).on (showing host second)).1 = .ok told' ∧
      ((Utf8.decode? name).isSome = (Utf8.decode? other).isSome →
        told.map unnamed = told'.map unnamed) ∧
      (Utf8.decode? name = none → told = none) := by
  have hHost : Standing host (fun tree => tree = host.kernel.tree ∨ tree = second) host :=
    ⟨rfl, .inl rfl, rfl, rfl, .refl _⟩
  have hShowing : Standing host (fun tree => tree = host.kernel.tree ∨ tree = second)
      (showing host second) := by
    refine ⟨rfl, .inr rfl, rfl, rfl, ?_, rfl, rfl⟩
    rw [Kernel.bootSeconds, Kernel.bootSeconds, hRenamed.bootSeconds]
    rfl
  let look (name : Bytes) : Run Kernel (Option Attributes) :=
    (resolve pid ((host.kernel.tree.readings pid).named before name after)).orNote
      (.processUnreadable pid)
  have hLook : (source.attributes pid release).on host = (look name).on host :=
    (attributes_on pid release host).trans
      (congrArg (fun readings => Run.on (Attempt.orNote (resolve pid readings) _) host)
        (Tree.readings_eq_named hFirst))
  have hReadings : second.readings pid = (host.kernel.tree.readings pid).named before other after := by
    rw [hRenamed.readings, Tree.readText_eq hSecond, Readings.named]
  have hLook' : (source.attributes pid release).on (showing host second) =
      (look other).on (showing host second) :=
    (attributes_on pid release (showing host second)).trans
      (congrArg (fun readings => Run.on (Attempt.orNote (resolve pid readings) _) _) hReadings)
  have hCertain : ∀ name, Run.Certain
      (Standing host fun tree => tree = host.kernel.tree ∨ tree = second) (look name) := fun name =>
    Attempt.certain_orNote (resolve_named_certain hBefore hAfter pid _ name) fun _ => note_certain _
  obtain ⟨told, hTold⟩ := hCertain name
  obtain ⟨told', hTold'⟩ := hCertain other
  refine ⟨told, told', ?_, ?_, fun hNames => ?_, fun hName => ?_⟩
  · rw [hLook]
    exact (hTold host hHost).1
  · rw [hLook']
    exact (hTold' _ hShowing).1
  · -- The two programs are compared on one and the same host.
    have hAlike := (resolve_named_alike hBefore hAfter pid (host.kernel.tree.readings pid) hNames).orNote
      (.processUnreadable pid) host
    change _ <$> ((look name).on host).1 = _ <$> ((look other).on host).1 at hAlike
    rw [(hTold host hHost).1, (hTold' host hHost).1] at hAlike
    exact Except.ok.inj hAlike
  · have hHidden : ((look name).on host).1 = .ok none := resolve_named_hidden hName pid _ _ _ host
    exact Except.ok.inj ((hTold host hHost).1.symm.trans hHidden)

/-- Trees that are the same but for the content of one file. -/
theorem Tree.differsAt_of_content {front back : List (Path × Node)} {key : Path} (hKey : key ≠ [])
    (hFront : front.lookup key = none) (content content' : Bytes) :
    Tree.DiffersAt (procName :: key) ⟨front ++ (key, .file content) :: back⟩
      ⟨front ++ (key, .file content') :: back⟩ where
  names := by simp
  first_file := ⟨content, by simp [nodeAt, hKey, List.lookup_append, hFront]⟩
  second_file := ⟨content', by simp [nodeAt, hKey, List.lookup_append, hFront]⟩
  elsewhere other hOther := by
    cases other with
    | nil => rfl
    | cons top rest =>
        rw [nodeAt, nodeAt]
        by_cases hTop : top = procName
        case neg => rw [if_pos hTop, if_pos hTop]
        case pos =>
          have hRest : (rest == key) = false := beq_false_of_ne fun hEq => hOther (by rw [hTop, hEq])
          simp only [List.lookup_append, List.lookup_cons, hRest]

/-- The same two processes as in `pairHost`, by the name of the first one. -/
def nameHost (name : Bytes) : Host Kernel :=
  pairHost (Stat.record (Utf8.bytes "7 ") name
    (Utf8.bytes " S 1 7 7 0 -1 0 12 0 3 0 25 18 0 0 20 0 1 0 150 8192 2"))

/-- The file with the status line of the first process. -/
def linePath : Path := [Tree.procName, [0x37], Utf8.bytes "stat"]

theorem renamed_nameHost (name other : Bytes) :
    Tree.Renamed 7 linePath (nameHost name).kernel.tree (nameHost other).kernel.tree where
  toDiffersAt := @Tree.differsAt_of_content [([[0x37]], .directory)] _ [[0x37], Utf8.bytes "stat"]
    (List.cons_ne_nil _ _) (by decide) _ _
  apart := by
    have hNone : (Tree.besides 7).all (fun location =>
      (nameHost name).kernel.tree.resolve (Tree.imageOf location) != .ok linePath) = true := by rfl
    simpa using hNone

theorem read_nameHost (name : Bytes) :
    (nameHost name).kernel.tree.read (.ofProcess 7 "stat") =
      .ok (Stat.record (Utf8.bytes "7 ") name
        (Utf8.bytes " S 1 7 7 0 -1 0 12 0 3 0 25 18 0 0 20 0 1 0 150 8192 2")) := by rfl

/-- A command name that looks like the rest of a status line, and another one. -/
theorem attributes_of_renamed_crooked :
    let first := nameHost (Utf8.bytes "\u00e9) R 1 (\n")
    let second := nameHost (Utf8.bytes "b")
    ∃ a a', ((source.attributes 7 ⟨6, 8⟩).on first).1 = .ok (some a) ∧
      ((source.attributes 7 ⟨6, 8⟩).on second).1 = .ok (some a') ∧ unnamed a = unnamed a' ∧
      a.name = "\u00e9) R 1 (\n" ∧ a'.name = "b" := by
  intro first second
  have hName : ((source.attributes 7 ⟨6, 8⟩).on first).1.map (Option.map (·.name)) =
      .ok (some "\u00e9) R 1 (\n") := by decide +kernel
  have hName' : ((source.attributes 7 ⟨6, 8⟩).on second).1.map (Option.map (·.name)) =
      .ok (some "b") := by decide +kernel
  obtain ⟨told, told', hTold, hTold', hSame, -⟩ := attributes_of_renamed
    (renamed_nameHost (Utf8.bytes "\u00e9) R 1 (\n") (Utf8.bytes "b")) (by decide) (by decide)
    (read_nameHost _) (read_nameHost _) ⟨6, 8⟩
  change ((source.attributes 7 ⟨6, 8⟩).on second).1 = .ok told' at hTold'
  rw [hTold] at hName
  rw [hTold'] at hName'
  obtain ⟨a, rfl, hA⟩ := Option.map_eq_some_iff.mp (Except.ok.inj hName)
  obtain ⟨a', rfl, hA'⟩ := Option.map_eq_some_iff.mp (Except.ok.inj hName')
  exact ⟨a, a', hTold, hTold', Option.some.inj (hSame (by decide)), hA, hA'⟩

/-- A process that may be seen under one name is not to be seen under a name that is no text. -/
theorem undecodable_name_hides_process :
    let first := nameHost (Utf8.bytes "a")
    let second := nameHost [0xff]
    Tree.Renamed 7 linePath first.kernel.tree second.kernel.tree ∧
      first.kernel.tree.read (.ofProcess 7 "stat") =
        .ok (Utf8.bytes "7 (a) S 1 7 7 0 -1 0 12 0 3 0 25 18 0 0 20 0 1 0 150 8192 2") ∧
      second = showing first second.kernel.tree ∧
      (((source.attributes 7 ⟨6, 8⟩).on first).1.map Option.isSome) = .ok true ∧
      ((source.attributes 7 ⟨6, 8⟩).on second).1 = .ok none :=
  ⟨renamed_nameHost _ _, by rfl, rfl, by decide +kernel, by rfl⟩

end ProcessCensus.Linux
