import ProcessCensus.Linux.Source
import ProcessCensus.Proofs.Accounts
import ProcessCensus.Proofs.Linux.Listing
import ProcessCensus.Proofs.Linux.Stat
import ProcessCensus.Proofs.Record.Read
import ProcessCensus.Proofs.Run
import ProcessCensus.Proofs.Text.Utf8

/-!
What is told about a Linux process is what its status line and its status file say, whatever the
process has chosen for its command name. The other files and links add to that, but cannot keep it
from being told.
-/

namespace ProcessCensus

namespace Linux

open Text

/-- The name of the owner with this id, in a database with these names. -/
def ownerOf (name : UInt32 → Option String) (id : UInt64) : Option String :=
  (narrowId? id).bind name

theorem ownerName_on {find : UInt32 → Run Kernel (Option String)} {name : UInt32 → Option String}
    (hFind : ∀ id host, ∃ journal, (find id).on host = (.ok (name id), { host with journal }))
    (id : UInt64) (host : Host Kernel) :
    ∃ journal, (ownerName find id).on host = (.ok (ownerOf name id), { host with journal }) := by
  rw [ownerName, ownerOf]
  cases narrowId? id with
  | none => exact ⟨host.journal, rfl⟩
  | some id => exact hFind id host

/-- What reading a file with this content as text gives. -/
def textOf (content : Bytes) : Except Refusal (List Char) :=
  (Utf8.decode? content).elim (.error .unspecified) .ok

theorem Tree.readText_eq {tree : Tree} {location : Location} {content : Bytes}
    (hRead : tree.read location = .ok content) : tree.readText location = textOf content := by
  rw [readText, hRead, textOf]
  simp only [bind, Except.bind]
  cases Utf8.decode? content <;> rfl

theorem Tree.readText_of_read {tree : Tree} {location : Location} {text : List Char}
    (hRead : tree.read location = .ok (Utf8.encode text)) : tree.readText location = .ok text := by
  rw [readText_eq hRead, textOf, Utf8.decode?_encode]
  rfl

/-- When the system started, as `/proc/stat` says; otherwise the epoch. -/
def Tree.bootSeconds (tree : Tree) : UInt64 :=
  match tree.readText (.ofText "/proc/stat".toList) with
  | .ok stat => (bootSeconds? stat).getD 0
  | .error _ => 0

/-- When the system started: what was read before counts, and then what can be read. -/
def Kernel.bootSeconds (kernel : Kernel) : UInt64 :=
  (kernel.bootTime.fresh? 0).getD kernel.tree.bootSeconds

theorem readBootTime_on (host : Host Kernel) :
    ∃ journal, readBootTime.on host =
      (.ok host.kernel.tree.bootSeconds, { host with journal }) := by
  rw [readBootTime, Run.on_bind_of_eq (Run.on_kernel host), Tree.bootSeconds]
  cases host.kernel.tree.readText (.ofText "/proc/stat".toList) with
  | error refusal => exact ⟨_, rfl⟩
  | ok stat => cases hSeconds : bootSeconds? stat <;> simp only [hSeconds] <;> exact ⟨_, rfl⟩

/-- The kernel after somebody has asked when the system started. -/
def Kernel.dated (kernel : Kernel) : Kernel :=
  { kernel with
    bootTime :=
      match kernel.bootTime.fresh? 0 with
      | some _ => kernel.bootTime
      | none => kernel.bootTime.publish 0 kernel.tree.bootSeconds }

/-- What has been read does not change when it is asked for again. -/
theorem Kernel.dated_of_fresh {kernel : Kernel} {seconds : UInt64}
    (hFresh : kernel.bootTime.fresh? 0 = some seconds) : kernel.dated = kernel := by
  rw [dated, hFresh]

theorem Kernel.dated_of_stale {kernel : Kernel} (hStale : kernel.bootTime.fresh? 0 = none) :
    kernel.dated =
      { kernel with bootTime := kernel.bootTime.publish 0 kernel.tree.bootSeconds } := by
  rw [dated, hStale]

theorem Kernel.bootSeconds_dated (kernel : Kernel) :
    kernel.dated.bootSeconds = kernel.bootSeconds := by
  cases hMemo : kernel.bootTime.fresh? 0 with
  | some seconds => rw [dated_of_fresh hMemo]
  | none =>
      rw [dated_of_stale hMemo, bootSeconds, bootSeconds, hMemo, Memo.getD_fresh?_publish]
      rfl

/-- When the system started is asked for without any trace but notices and the memo. -/
theorem bootTime_on (host : Host Kernel) :
    ∃ journal, bootTime.on host =
      (.ok host.kernel.bootSeconds, { host with kernel := host.kernel.dated, journal }) := by
  rw [bootTime, Run.on_bind_of_eq (Run.on_kernel host), Kernel.bootSeconds]
  cases hMemo : host.kernel.bootTime.fresh? 0 with
  | some seconds =>
      rw [Kernel.dated_of_fresh hMemo]
      exact ⟨host.journal, Run.on_bind_of_eq (Memo.on_obtain_of_fresh hMemo _) _⟩
  | none =>
      obtain ⟨journal, hRead⟩ := readBootTime_on host
      rw [Kernel.dated_of_stale hMemo]
      exact ⟨journal, Run.on_bind_of_eq (Memo.on_obtain_of_stale hMemo hRead) _⟩

/-- The width of an address is found in whatever image there is. -/
theorem bitness_eq_ok (image : Option Bytes) : ∃ width, bitness image = .ok width := by
  cases image with
  | none => exact ⟨0, rfl⟩
  | some image =>
      simp only [bitness]
      split
      case isTrue => exact ⟨0, rfl⟩
      case isFalse hProper =>
        have hField : Record.imageIdent.field "ei_class" = .ok ⟨"ei_class", 4, 1⟩ := by decide
        have hHead : Record.imageIdent.size ≤ (image.take Record.imageIdent.size).length :=
          Nat.not_lt.mp fun hShort => hProper (.inl hShort)
        have hRead := Record.Layout.word_eq_ok hField (by decide) hHead
        rw [Record.Layout.readUInt8, hRead]
        exact ⟨_, rfl⟩

@[simp] theorem toNat_saturatingMul (a : UInt64) (factor : Nat) :
    (saturatingMul a factor).toNat = min (UInt64.size - 1) (a.toNat * factor) :=
  UInt64.toNat_ofNat_of_lt' (Nat.lt_of_le_of_lt (Nat.min_le_left _ _) (by decide))

@[simp] theorem toNat_ticksToMillis (rate ticks : UInt64) :
    (ticksToMillis rate ticks).toNat =
      min (UInt64.size - 1) (ticks.toNat * 1000) / max 1 rate.toNat := by
  rw [ticksToMillis, toNat_saturatingMul]
  have hMost : min (UInt64.size - 1) (ticks.toNat * 1000) / max 1 rate.toNat ≤ UInt64.size - 1 :=
    (Nat.div_le_self _ _).trans (Nat.min_le_left _ _)
  exact UInt64.toNat_ofNat_of_lt' (Nat.lt_of_le_of_lt hMost (by decide))

theorem ticksToMillis_le (rate : UInt64) {ticks ticks' : UInt64} (hLe : ticks ≤ ticks') :
    (ticksToMillis rate ticks).toNat ≤ (ticksToMillis rate ticks').toNat := by
  rw [toNat_ticksToMillis, toNat_ticksToMillis]
  have hTicks := UInt64.le_iff_toNat_le.mp hLe
  exact Nat.div_le_div_right (by omega)

/-- A second has a hundred clock ticks, and a page 4096 bytes. -/
structure Kernel.Customary (kernel : Kernel) : Prop where
  clockTicks : kernel.clockTicks = 100
  pageSize : kernel.pageSize = 4096

/-- The attributes are those in a status line, for a system that started `boot` seconds after the
epoch. -/
structure StatLine.Told (line : StatLine) (boot : UInt64) (a : Attributes) : Prop where
  state : a.state =
    match line.state with
    | 'R' => .running
    | 'S' | 'I' => .sleeping
    | 'D' => .waiting
    | 'Z' => .zombie
    | 'T' | 't' => .stopped
    | _ => .other
  parent : a.parent = line.parent
  threads : a.threads.toNat = min (UInt32.size - 1) line.threads.toNat
  priority : a.priority = line.priority
  virtualSize : a.virtualSize = line.virtualSize
  residentSize : a.residentSize.toNat = min (UInt64.size - 1) (line.residentPages.toNat * 4096)
  minorFaults : a.minorFaults = line.minorFaults
  majorFaults : a.majorFaults = line.majorFaults
  kernelTime : a.kernelTime.toNat = min (UInt64.size - 1) (line.kernelTicks.toNat * 1000) / 100
  userTime : a.userTime.toNat = min (UInt64.size - 1) (line.userTicks.toNat * 1000) / 100
  startTime :
    let start := boot.toNat * 1000 + min (UInt64.size - 1) (line.startTicks.toNat * 1000) / 100
    start < UInt64.size → a.startTime.toNat = start

theorem toNat_startTime {boot rate ticks : UInt64}
    (hFits : boot.toNat * 1000 + (ticksToMillis rate ticks).toNat < UInt64.size) :
    (boot * 1000 + ticksToMillis rate ticks).toNat =
      boot.toNat * 1000 + (ticksToMillis rate ticks).toNat := by
  have hProduct : (boot * 1000).toNat = boot.toNat * 1000 :=
    (UInt64.toNat_mul boot 1000).trans
      (Nat.mod_eq_of_lt (Nat.lt_of_le_of_lt (Nat.le_add_right _ _) hFits))
  rw [UInt64.toNat_add, hProduct]
  exact Nat.mod_eq_of_lt hFits

variable {host : Host Kernel} {line : StatLine} {readings : Readings} {text : List Char}
  {status : Listing}

/-- With a proper status line, and if it is said to belong to no other process, a process has
attributes. -/
theorem resolve_on (hUnits : host.kernel.Customary) (hStat : readings.stat = .ok text)
    (hSplit : Stat.split? text = some line.fields)
    (hStatus : Listing.ofText (readings.status.getD []) = status)
    (hOwner : status.pid? "Tgid" = some line.pid) :
    ∃ a after, (resolve line.pid readings).outcome.on host = (.ok (.ok a), after) ∧
      line.Told host.kernel.bootSeconds a ∧
      a.name = String.ofList (processName (executablePath readings.executable) line.command) ∧
      a.userId = toString (status.number "Uid") ∧ a.groupId = toString (status.number "Gid") ∧
      a.contextSwitches =
        status.number "voluntary_ctxt_switches" + status.number "nonvoluntary_ctxt_switches" := by
  obtain ⟨hParent, hMinor, hMajor, hUser, hKernel, hPriority, hThreads, hStart, hVirtual, hResident⟩ :=
    Stat.numbers_eq line
  obtain ⟨first, hUserName⟩ :=
    ownerName_on (Accounts.userName_on host.kernel.users) (status.number "Uid") host
  obtain ⟨second, hGroupName⟩ := ownerName_on (Accounts.groupName_on host.kernel.groups)
    (status.number "Gid") { host with journal := first }
  obtain ⟨journal, hBoot⟩ := bootTime_on { host with journal := second }
  obtain ⟨width, hWidth⟩ := bitness_eq_ok readings.image
  have hRead : ∀ third, (Run.read (.ok width) : Run Kernel UInt32).on third = (.ok width, third) :=
    fun _ => rfl
  -- What the line says is settled without a question; four questions to the host are left.
  rw [resolve]
  simp only [hStat, hSplit, hStatus, hOwner, hParent, hMinor, hMajor, hUser, hKernel, hPriority,
    hThreads, hStart, hVirtual, hResident, hWidth, Attempt.ofExcept, pure_bind, line.threads_ne,
    if_false, ne_eq, not_true_eq_false]
  rw [Attempt.on_bind_of_eq (Attempt.on_lift_of_eq (Run.on_kernel host)),
    Attempt.on_bind_of_eq (Attempt.on_lift_of_eq hUserName),
    Attempt.on_bind_of_eq (Attempt.on_lift_of_eq hGroupName),
    Attempt.on_bind_of_eq (Attempt.on_lift_of_eq hBoot),
    Attempt.on_bind_of_eq (Attempt.on_lift_of_eq (hRead _)), Attempt.outcome_pure, Run.on_pure]
  refine ⟨_, _, rfl, ?_, rfl, rfl, rfl, rfl⟩
  have hCap : min (UInt32.size - 1) line.threads.toNat < UInt32.size :=
    Nat.lt_of_le_of_lt (Nat.min_le_left _ _) (by decide)
  have hMillis : ∀ ticks, (ticksToMillis host.kernel.clockTicks ticks).toNat =
      min (UInt64.size - 1) (ticks.toNat * 1000) / 100 := by
    rw [hUnits.clockTicks]
    exact toNat_ticksToMillis 100
  have hBytes : ∀ pages, (saturatingMul pages host.kernel.pageSize.toNat).toNat =
      min (UInt64.size - 1) (pages.toNat * 4096) := by
    rw [hUnits.pageSize]
    exact fun pages => toNat_saturatingMul pages 4096
  exact {
    state := Stat.stateOf_singleton line.state
    parent := rfl
    threads := UInt32.toNat_ofNat_of_lt' hCap
    priority := rfl
    virtualSize := rfl
    residentSize := hBytes _
    minorFaults := rfl
    majorFaults := rfl
    kernelTime := hMillis _
    userTime := hMillis _
    startTime := by
      rw [← hMillis]
      exact toNat_startTime }

theorem attributes_on (pid : Int32) (release : Release) (host : Host Kernel) :
    (attributes pid release).on host =
      ((resolve pid (host.kernel.tree.readings pid)).orNote (.processUnreadable pid)).on host := by
  rw [attributes, Run.on_bind_of_eq (Run.on_kernel host)]

/-- Reading the attributes of a process undoes the way in which the kernel writes them down. The
status line may end with white space, and the status file may have any other lines. -/
theorem attributes_of_render (hUnits : host.kernel.Customary) (line : StatLine) {ending : List Char}
    (hEnding : ending.all isBlank = true)
    (hStat : host.kernel.tree.read (.ofProcess line.pid "stat") =
      .ok (Utf8.encode (line.render ++ ending)))
    {rows : List (List Char)} (hRows : ∀ row ∈ rows, '\n' ∉ row)
    (hStatus : host.kernel.tree.read (.ofProcess line.pid "status") =
      .ok (Utf8.encode (rows.flatMap (· ++ ['\n']))))
    (hOwner : Listing.Names rows "Tgid" line.pid) {userId groupId voluntary forced : UInt64}
    (hUser : Listing.Counts rows "Uid" userId) (hGroup : Listing.Counts rows "Gid" groupId)
    (hVoluntary : Listing.Counts rows "voluntary_ctxt_switches" voluntary)
    (hForced : Listing.Counts rows "nonvoluntary_ctxt_switches" forced) (release : Release) :
    ∃ a, ((source.attributes line.pid release).on host).1 = .ok (some a) ∧
      line.Told host.kernel.bootSeconds a ∧
      a.userId = toString userId ∧ a.groupId = toString groupId ∧
      a.contextSwitches = voluntary + forced ∧
      (host.kernel.tree.readLink (.ofProcess line.pid "exe") = none →
        a.name = String.ofList line.command) := by
  have hText : (host.kernel.tree.readings line.pid).stat = .ok (line.render ++ ending) :=
    Tree.readText_of_read hStat
  have hListing : (host.kernel.tree.readings line.pid).status =
      some (rows.flatMap (· ++ ['\n'])) := by
    simp only [Tree.readings, Tree.readText_of_read hStatus, Except.toOption]
  have hOwn := Listing.pid?_of_names hRows (by decide) hOwner
  obtain ⟨a, after, hResolve, hTold, hName, hUserId, hGroupId, hSwitches⟩ :=
    @resolve_on host _ _ _ _ hUnits hText (Stat.split?_render line hEnding) (by rw [hListing]; rfl)
      hOwn
  rw [Listing.number_of_counts hRows (by decide) hUser] at hUserId
  rw [Listing.number_of_counts hRows (by decide) hGroup] at hGroupId
  rw [Listing.number_of_counts hRows (by decide) hVoluntary,
    Listing.number_of_counts hRows (by decide) hForced] at hSwitches
  have hAnswer : ((source.attributes line.pid release).on host).1 = .ok (some a) := by
    change ((attributes line.pid release).on host).1 = _
    rw [attributes_on, Attempt.on_orNote_of_eq hResolve]
  refine ⟨a, hAnswer, hTold, hUserId, hGroupId, hSwitches, fun hLink => ?_⟩
  have hNone : (host.kernel.tree.readings line.pid).executable = none := by
    rw [Tree.readings, hLink]
  rw [hName, hNone]
  rfl

/-- A process whose command name looks like the rest of a status line. -/
def crookedLine : StatLine where
  pid := 7
  command := "a) R 1 (\nb".toList
  state := 'D'
  parent := -1
  processGroup := 7
  session := 7
  terminal := 0
  terminalGroup := -1
  flags := 4194304
  minorFaults := 12
  childMinorFaults := 0
  majorFaults := 3
  childMajorFaults := 0
  userTicks := 25
  kernelTicks := 18446744073709551615
  childUserTicks := 0
  childKernelTicks := 0
  priority := -2
  nice := 0
  threads := 4294967296
  timer := 0
  startTicks := 150
  virtualSize := 8192
  residentPages := 2
  others := [-1, 0, 17]
  state_visible := by decide
  state_ne := by decide
  threads_ne := by decide

def crookedRows : List (List Char) :=
  ["Name:\ta) R 1 (\\nb".toList, "Tgid:\t7".toList, "Uid:\t1000\t0\t0\t0".toList,
    "Gid:\t100\t0\t0\t0".toList, "voluntary_ctxt_switches:\t5".toList,
    "nonvoluntary_ctxt_switches:\t6".toList]

def crookedHost : Host Kernel where
  kernel := {
    tree := ⟨[([Utf8.bytes "stat"], .file (Utf8.bytes "cpu 1\nbtime 1000\n")),
      ([[0x37]], .directory),
      ([[0x37], Utf8.bytes "stat"], .file (Utf8.encode (crookedLine.render ++ ['\n']))),
      ([[0x37], Utf8.bytes "status"],
        .file (Utf8.encode (crookedRows.flatMap (· ++ ['\n']))))]⟩
    users := []
    groups := []
    bootTime := .forever
    clockTicks := 100
    pageSize := 4096
    ownPid := 1 }
  clock := 0
  journal := []

theorem attributes_of_render_crooked :
    crookedHost.kernel.Customary ∧
      ∃ a, ((source.attributes 7 ⟨6, 8⟩).on crookedHost).1 = .ok (some a) ∧
        crookedLine.Told 1000 a ∧ a.state = .waiting ∧ a.threads.toNat = 4294967295 ∧
        a.kernelTime.toNat = 184467440737095516 ∧ a.startTime.toNat = 1001500 ∧
        a.userId = "1000" ∧ a.groupId = "100" ∧ a.contextSwitches = 11 ∧
        a.name = "a) R 1 (\nb" := by
  have hStat : crookedHost.kernel.tree.read (.ofProcess 7 "stat") =
      .ok (Utf8.encode (crookedLine.render ++ ['\n'])) := by rfl
  have hStatus : crookedHost.kernel.tree.read (.ofProcess 7 "status") =
      .ok (Utf8.encode (crookedRows.flatMap (· ++ ['\n']))) := by rfl
  have hRows : ∀ row ∈ crookedRows, '\n' ∉ row := by decide
  have hOwner : Listing.Names crookedRows "Tgid" 7 :=
    ⟨['\t'], [], ⟨crookedRows.take 1, crookedRows.drop 2, by decide, by decide⟩, by decide,
      by decide⟩
  have hUser : Listing.Counts crookedRows "Uid" 1000 :=
    ⟨['\t'], "\t0\t0\t0".toList, ⟨crookedRows.take 2, crookedRows.drop 3, by decide, by decide⟩,
      by decide, by decide⟩
  have hGroup : Listing.Counts crookedRows "Gid" 100 :=
    ⟨['\t'], "\t0\t0\t0".toList, ⟨crookedRows.take 3, crookedRows.drop 4, by decide, by decide⟩,
      by decide, by decide⟩
  have hVoluntary : Listing.Counts crookedRows "voluntary_ctxt_switches" 5 :=
    ⟨['\t'], [], ⟨crookedRows.take 4, crookedRows.drop 5, by decide, by decide⟩, by decide,
      by decide⟩
  have hForced : Listing.Counts crookedRows "nonvoluntary_ctxt_switches" 6 :=
    ⟨['\t'], [], ⟨crookedRows.take 5, [], by decide, by decide⟩, by decide, by decide⟩
  have hBoot : crookedHost.kernel.bootSeconds = 1000 := by rfl
  obtain ⟨a, hAnswer, hTold, hUserId, hGroupId, hSwitches, hName⟩ :=
    attributes_of_render ⟨rfl, rfl⟩ crookedLine (by decide) hStat hRows hStatus hOwner hUser hGroup
      hVoluntary hForced ⟨6, 8⟩
  rw [hBoot] at hTold
  exact ⟨⟨rfl, rfl⟩, a, hAnswer, hTold, hTold.state, hTold.threads, hTold.kernelTime,
    hTold.startTime (by decide), hUserId, hGroupId, hSwitches, hName (by rfl)⟩

end Linux

end ProcessCensus
