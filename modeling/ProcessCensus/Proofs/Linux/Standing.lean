import ProcessCensus.Proofs.Linux.Resolver
import ProcessCensus.Proofs.Source.Live

/-!
What a look at a Linux process comes to as long as the system stands. It depends on the files, the two
databases and the time of the start, and a look changes none of them. Whether a process is told at all
is up to its status line and its status file; everything else completes that. The only thing that
breaks a look off is a status line whose closing parentheses all stand in front of its first opening
one.
-/

namespace ProcessCensus.Linux

open Text

/-- The kernels were started at the same time and measure in the same units. -/
structure Kernel.Akin (kernel other : Kernel) : Prop where
  boot : kernel.bootSeconds = other.bootSeconds
  clockTicks : kernel.clockTicks = other.clockTicks
  pageSize : kernel.pageSize = other.pageSize

theorem Kernel.Akin.refl (kernel : Kernel) : kernel.Akin kernel :=
  ⟨rfl, rfl, rfl⟩

/-- The host shows what `base` shows, except that its file tree may be any of the `trees`. Journals
and the memo of the start may differ. -/
structure Standing (base : Host Kernel) (trees : Tree → Prop) (host : Host Kernel) : Prop where
  clock : host.clock = base.clock
  tree : trees host.kernel.tree
  users : host.kernel.users = base.kernel.users
  groups : host.kernel.groups = base.kernel.groups
  akin : host.kernel.Akin base.kernel

theorem Standing.refl (host : Host Kernel) : Standing host (· = host.kernel.tree) host :=
  ⟨rfl, rfl, rfl, rfl, .refl _⟩

/-- What the calls beside those for the status line and the status file find about a process. -/
structure Additions where
  path : List Char
  directory : Option String
  user : Option String
  group : Option String
  openFiles : UInt64
  bitness : UInt32
  bytesRead : UInt64
  bytesWritten : UInt64

/-- The attributes of a process with this command name, with what was found beside the status. -/
def Additions.complete (additions : Additions) (command : Option (List Char)) (a : Attributes) :
    Attributes :=
  { a with
    name := String.ofList (processName additions.path command)
    path := String.ofList additions.path
    workingDirectory := additions.directory
    user := additions.user
    group := additions.group
    openFiles := additions.openFiles
    bitness := additions.bitness
    bytesRead := additions.bytesRead
    bytesWritten := additions.bytesWritten }

/-- The command name on a status line. -/
def commandOf (stat : Except Refusal (List Char)) : Option (List Char) :=
  match stat with
  | .ok line => (Stat.split? line).bind (·[Stat.nameField]?)
  | .error _ => none

/-- What is found beside the status, on a system with these databases. -/
def Readings.additions (readings : Readings) (users groups : Accounts.Database) : Additions :=
  let status := Listing.ofText (readings.status.getD [])
  let io := Listing.ofText (readings.io.getD [])
  { path := executablePath readings.executable
    directory := readings.workingDirectory.map Text.Utf8.text
    user := ownerOf (Accounts.user? users) (status.number "Uid")
    group := ownerOf (Accounts.group? groups) (status.number "Gid")
    openFiles := UInt64.ofNat (readings.openFiles.getD 0)
    bitness := (bitness readings.image).toOption.getD 0
    bytesRead := io.number "read_bytes"
    bytesWritten := io.number "write_bytes" }

section Yields

variable {base : Host Kernel} {trees : Tree → Prop}

theorem note_yields (notice : Notice) :
    Run.Yields (Standing base trees) (Run.note notice) (.ok ()) :=
  fun _ hHost => ⟨rfl, hHost.clock, hHost.tree, hHost.users, hHost.groups, hHost.akin⟩

theorem note_certain (notice : Notice) : Run.Certain (Standing base trees) (Run.note notice) :=
  ⟨(), note_yields notice⟩

theorem bootTime_yields :
    Run.Yields (Standing base trees) bootTime (.ok base.kernel.bootSeconds) := by
  intro host hHost
  obtain ⟨journal, hBoot⟩ := bootTime_on host
  rw [hBoot]
  exact ⟨congrArg Except.ok hHost.akin.boot, hHost.clock, hHost.tree, hHost.users, hHost.groups,
    host.kernel.bootSeconds_dated.trans hHost.akin.boot, hHost.akin.clockTicks,
    hHost.akin.pageSize⟩

theorem ownerName_yields {find : UInt32 → Run Kernel (Option String)}
    {name : UInt32 → Option String}
    (hFind : ∀ id host, ∃ journal, (find id).on host = (.ok (name id), { host with journal }))
    (id : UInt64) :
    Run.Yields (Standing base trees) (ownerName find id) (.ok (ownerOf name id)) := by
  intro host hHost
  obtain ⟨journal, hName⟩ := ownerName_on hFind id host
  rw [hName]
  exact ⟨rfl, hHost.clock, hHost.tree, hHost.users, hHost.groups, hHost.akin⟩

theorem bitness_yields (image : Option Bytes) :
    Run.Yields (Standing base trees) (Run.read (bitness image))
      (.ok ((bitness image).toOption.getD 0)) := by
  obtain ⟨width, hWidth⟩ := bitness_eq_ok image
  rw [hWidth]
  exact .pure width

end Yields

/-- A look at a process: what its files say, on a host whose kernel is akin to a known one. -/
structure Look (kernel : Kernel) where
  readings : Readings
  host : Host Kernel
  akin : host.kernel.Akin kernel

/-- What is found beside the status in a look at a process. -/
def Look.additions {kernel : Kernel} (look : Look kernel) (status : Option (List Char)) : Additions :=
  { look.readings with status }.additions look.host.kernel.users look.host.kernel.groups

/-- Processes with the same status that are looked at are all told or none is, and what is told of them
differs in no more than what is found beside the status. -/
theorem resolve_completes (pid : Int32) {stat : Except Refusal (List Char)}
    (hStat : ∀ line, stat = .ok line → ¬Stat.Crossed line) (status : Option (List Char))
    (trees : Tree → Prop) (kernel : Kernel) :
    Attempt.Completes (fun look : Look kernel => Standing look.host trees)
      (fun look => (look.additions status).complete (commandOf stat))
      (fun look => resolve pid { look.readings with stat, status }) := by
  simp only [resolve]
  cases hLine : stat with
  | error refusal => exact Attempt.completes_throw _
  | ok line =>
      obtain ⟨fields, hFields⟩ :=
        Option.ne_none_iff_exists'.mp fun hNone =>
          hStat line hLine (Stat.split?_eq_none_iff.mp hNone)
      have hCommand : commandOf (.ok line) = fields[Stat.nameField]? := by
        rw [commandOf, hFields]
        rfl
      simp only [hFields, pure_bind, Attempt.throw_bind]
      refine Attempt.completes_ofExcept_bind fun threads => ?_
      split
      case isTrue => exact Attempt.completes_throw _
      split
      case' h_1 => split
      case' h_1.isTrue => exact Attempt.completes_throw _
      -- What is left is the same whether the owner is named or not.
      all_goals
        refine Attempt.completes_ofExcept_bind fun startTicks => ?_
        refine Attempt.completes_kernel_bind
          (fun look =>
            { kernel with users := look.host.kernel.users, groups := look.host.kernel.groups })
          (fun look host hHost => by
            simp only [hHost.users, hHost.groups, hHost.akin.clockTicks, hHost.akin.pageSize,
              look.akin.clockTicks, look.akin.pageSize]) ?_
        refine Attempt.completes_lift_bind
          (fun look => ownerName_yields (Accounts.userName_on look.host.kernel.users) _) ?_
        refine Attempt.completes_lift_bind
          (fun look => ownerName_yields (Accounts.groupName_on look.host.kernel.groups) _) ?_
        refine Attempt.completes_ofExcept_bind fun parent => ?_
        refine Attempt.completes_ofExcept_bind fun priority => ?_
        refine Attempt.completes_ofExcept_bind fun virtualSize => ?_
        refine Attempt.completes_ofExcept_bind fun residentPages => ?_
        refine Attempt.completes_ofExcept_bind fun kernelTicks => ?_
        refine Attempt.completes_ofExcept_bind fun userTicks => ?_
        refine Attempt.completes_lift_bind (fun look => look.akin.boot ▸ bootTime_yields) ?_
        refine Attempt.completes_lift_bind (fun look => bitness_yields look.readings.image) ?_
        refine Attempt.completes_ofExcept_bind fun minorFaults => ?_
        refine Attempt.completes_ofExcept_bind fun majorFaults => ?_
        refine Attempt.completes_pure fun look other => ?_
        rw [Additions.complete, hCommand]
        rfl

/-- A line that comes apart does not keep the look from going through. -/
theorem resolve_certain {base : Host Kernel} {trees : Tree → Prop} (pid : Int32)
    {readings : Readings} (hStat : ∀ line, readings.stat = .ok line → ¬Stat.Crossed line) :
    Run.Certain (Standing base trees) (resolve pid readings).outcome := by
  obtain ⟨core, hCore⟩ :=
    resolve_completes pid hStat readings.status trees base.kernel
  exact ⟨_, hCore ⟨readings, base, .refl _⟩⟩

/-- The status line of the process can be read, but not be taken apart. -/
def Tree.Crossed (tree : Tree) (pid : Int32) : Prop :=
  ∃ line, tree.readText (.ofProcess pid "stat") = .ok line ∧ Stat.Crossed line

theorem Tree.crossed_iff {tree : Tree} {pid : Int32} :
    tree.Crossed pid ↔ (tree.readText (.ofProcess pid "stat")).toOption.any
      (fun line => (Stat.split? line).isNone) = true := by
  rw [Crossed]
  cases tree.readText (.ofProcess pid "stat") with
  | error refusal => simp [Except.toOption]
  | ok line => simp [Except.toOption, Stat.split?_eq_none_iff]

theorem Tree.not_crossed_of_readings {tree : Tree} {pid : Int32} (hPid : ¬tree.Crossed pid) :
    ∀ line, (tree.readings pid).stat = .ok line → ¬Stat.Crossed line :=
  fun line hLine hCrossed => hPid ⟨line, hLine, hCrossed⟩

variable {base : Host Kernel} {pid : Int32}

theorem attributes_certain (hPid : ¬base.kernel.tree.Crossed pid) (release : Release) :
    Run.Certain (Standing base (· = base.kernel.tree)) (attributes pid release) := by
  have hSame : ∀ host, Standing base (· = base.kernel.tree) host →
      (resolve pid (host.kernel.tree.readings pid)).orNote (.processUnreadable pid) =
        (resolve pid (base.kernel.tree.readings pid)).orNote (.processUnreadable pid) :=
    fun host hHost => by rw [hHost.tree]
  exact .kernel_bind hSame (Attempt.certain_orNote
    (resolve_certain pid (Tree.not_crossed_of_readings hPid))
    fun _ => note_certain _)

theorem attributes_crossed (hPid : base.kernel.tree.Crossed pid) (release : Release) :
    Run.Yields (Standing base (· = base.kernel.tree)) (attributes pid release)
      (.error .crossedParentheses) := by
  intro host hHost
  obtain ⟨line, hLine, hCrossed⟩ := hPid
  have hStat : (host.kernel.tree.readings pid).stat = .ok line := by
    rw [hHost.tree]
    exact hLine
  have hResolve : resolve pid (host.kernel.tree.readings pid) =
      Attempt.lift (throw .crossedParentheses) := by
    rw [resolve, hStat]
    simp only [pure_bind, Stat.split?_eq_none_iff.mpr hCrossed]
    rfl
  rw [attributes_on]
  simp only [hResolve]
  exact ⟨rfl, hHost⟩

/-- Every process has its one outcome as long as the files and the databases stay as they are. -/
theorem attributes_steady (base : Host Kernel) (pid : Int32) (release : Release) :
    Run.Yields (Standing base (· = base.kernel.tree)) (attributes pid release)
      ((attributes pid release).on base).1 := by
  by_cases hPid : base.kernel.tree.Crossed pid
  case pos =>
    have hYields := attributes_crossed hPid release
    rwa [(hYields base (.refl base)).1]
  case neg => exact (attributes_certain hPid release).yields (.refl base)

theorem Stat.state_ne_invalid (fields : List (List Char)) : Stat.state fields ≠ .invalid := by
  unfold Stat.state Stat.stateOf
  split <;> exact RunState.noConfusion

theorem one_le_cap {threads : UInt64} (hThreads : threads ≠ 0) :
    1 ≤ UInt32.ofNat (min (UInt32.size - 1) threads.toNat) := by
  have hPos : threads.toNat ≠ 0 := fun hZero => hThreads (UInt64.toNat_inj.mp hZero)
  have hCap : min (UInt32.size - 1) threads.toNat < UInt32.size :=
    Nat.lt_of_le_of_lt (Nat.min_le_left _ _) (by decide)
  rw [UInt32.le_iff_toNat_le, UInt32.toNat_ofNat_of_lt' hCap]
  exact Nat.le_min.mpr ⟨by decide, Nat.pos_of_ne_zero hPos⟩

/-- What the status line and the status file have to say for the attributes of a process to be told,
and what is then taken from them. -/
structure Readings.Grounds (readings : Readings) (pid : Int32) (a : Attributes) : Prop where
  threads : ∃ count : UInt64, count ≠ 0 ∧
    a.threads = UInt32.ofNat (min (UInt32.size - 1) count.toNat)
  state : ∃ fields, a.state = Stat.state fields
  upTime : a.upTime = 0
  task : ∀ owner, (Listing.ofText (readings.status.getD [])).pid? "Tgid" = some owner → owner = pid
  userId : a.userId = toString ((Listing.ofText (readings.status.getD [])).number "Uid")
  groupId : a.groupId = toString ((Listing.ofText (readings.status.getD [])).number "Gid")

theorem resolve_grounds (pid : Int32) (readings : Readings) :
    Attempt.Ensures (readings.Grounds pid) (resolve pid readings) := by
  rw [resolve]
  cases hStat : readings.stat with
  | error refusal => exact Attempt.ensures_throw _
  | ok line =>
      simp only [pure_bind, Attempt.throw_bind]
      split
      case h_2 =>
        intro host a hOn
        cases hOn
      case h_1 fields _ =>
        refine Attempt.ensures_bind fun threads => ?_
        split
        case isTrue => exact Attempt.ensures_throw _
        case isFalse hThreads =>
          split
          case' h_1 => split
          case' h_1.isTrue => exact Attempt.ensures_throw _
          -- Neither the databases nor the other fields have a say.
          all_goals
            iterate 14 refine Attempt.ensures_bind fun _ => ?_
            refine Attempt.ensures_pure
              ⟨⟨threads, hThreads, rfl⟩, ⟨fields, rfl⟩, rfl, fun owner hOwner => ?_, rfl, rfl⟩
            simp_all

/-- A process about which anything is told is alive. -/
theorem resolve_fresh (pid : Int32) (readings : Readings) :
    Attempt.Ensures (·.Fresh) (resolve pid readings) := by
  intro host a hOn
  obtain ⟨⟨count, hCount, hThreads⟩, ⟨fields, hState⟩, hUpTime, -⟩ :=
    resolve_grounds pid readings host a hOn
  exact ⟨hThreads ▸ one_le_cap hCount, hState ▸ Stat.state_ne_invalid fields, hUpTime⟩

theorem attributes_fresh (pid : Int32) (release : Release) (host : Host Kernel) (a : Attributes)
    (hAttributes : ((attributes pid release).on host).1 = .ok (some a)) : a.Fresh := by
  rw [attributes_on] at hAttributes
  exact (resolve_fresh pid _).of_orNote hAttributes

theorem source_reportsLive : source.ReportsLive :=
  .of_readEach rfl attributes_fresh

end ProcessCensus.Linux
