import ProcessCensus.Proofs.Linux.Standing
import ProcessCensus.Proofs.Source.Aspect

/-!
Aspects of a process on Linux. Whether a process is told depends on its status line and its status
file; what the other files, the links and the databases say completes that, each in a place of its own.
-/

namespace ProcessCensus.Linux

/-- What the files and links say, with the answer for one aspect withheld. -/
def Readings.withhold (readings : Readings) : Aspect → Readings
  | .path => { readings with executable := none }
  | .directory => { readings with workingDirectory := none }
  | .transfers => { readings with io := none }
  | .openFiles => { readings with openFiles := none }
  | .bitness => { readings with image := none }
  | .user | .group | .times | .memory => readings

theorem Readings.stat_withhold (readings : Readings) (aspect : Aspect) :
    (readings.withhold aspect).stat = readings.stat := by
  cases aspect <;> rfl

theorem Readings.status_withhold (readings : Readings) (aspect : Aspect) :
    (readings.withhold aspect).status = readings.status := by
  cases aspect <;> rfl

/-- The kernels answer alike, except for the call for one aspect. -/
structure Apart (aspect : Aspect) (pid : Int32) (host host' : Host Kernel) : Prop where
  readings : (host.kernel.tree.readings pid).withhold aspect =
    (host'.kernel.tree.readings pid).withhold aspect
  users : aspect ≠ .user → host.kernel.users = host'.kernel.users
  groups : aspect ≠ .group → host.kernel.groups = host'.kernel.groups
  akin : host.kernel.Akin host'.kernel

/-- The call for an aspect comes to nothing. -/
def Silent (aspect : Aspect) (pid : Int32) (host : Host Kernel) : Prop :=
  let readings := host.kernel.tree.readings pid
  let status := Listing.ofText (readings.status.getD [])
  match aspect with
  | .path => readings.executable = none
  | .directory => readings.workingDirectory = none
  | .user => ownerOf (Accounts.user? host.kernel.users) (status.number "Uid") = none
  | .group => ownerOf (Accounts.group? host.kernel.groups) (status.number "Gid") = none
  | .transfers => readings.io = none
  | .openFiles => readings.openFiles = none
  | .bitness => readings.image = none
  | .times | .memory => False

/-- A process without a known executable has no path, and is called by its command name. -/
def probing : Probing Kernel where
  apart := Apart
  silent aspect pid _ := Silent aspect pid
  fallbackPath _ _ := ""
  fallbackName pid host :=
    String.ofList ((commandOf (host.kernel.tree.readings pid).stat).getD [])

namespace Apart

variable {aspect : Aspect} {pid : Int32} {host host' : Host Kernel}

theorem stat_eq (hApart : Apart aspect pid host host') :
    (host.kernel.tree.readings pid).stat = (host'.kernel.tree.readings pid).stat := by
  rw [← Readings.stat_withhold _ aspect, hApart.readings, Readings.stat_withhold]

theorem status_eq (hApart : Apart aspect pid host host') :
    (host.kernel.tree.readings pid).status = (host'.kernel.tree.readings pid).status := by
  rw [← Readings.status_withhold _ aspect, hApart.readings, Readings.status_withhold]

/-- A process with one and the same status differs in the one aspect only. -/
theorem without_eq (hApart : Apart aspect pid host host') (command : Option (List Char))
    (a : Attributes) (path name : String) :
    (((host.kernel.tree.readings pid).additions host.kernel.users host.kernel.groups).complete
        command a).without path name aspect =
      (((host'.kernel.tree.readings pid).additions host'.kernel.users host'.kernel.groups).complete
        command a).without path name aspect := by
  obtain ⟨hReadings, hUsers, hGroups, -⟩ := hApart
  cases aspect <;>
    simp only [Readings.withhold, Readings.mk.injEq] at hReadings <;>
    simp [hReadings, hUsers, hGroups, Readings.additions, Additions.complete, Attributes.without]

end Apart

/-- What a look at a process comes to, on all hosts with the same status of the process: it is told on
all of them or on none, and only what completes the status can be different. -/
theorem exists_attributes_eq (pid : Int32) {stat : Except Refusal (List Char)}
    (hStat : ∀ line, stat = .ok line → ¬Stat.Crossed line) (status : Option (List Char))
    (kernel : Kernel) :
    ∃ core : Option Attributes, ∀ release (host : Host Kernel),
      let readings := host.kernel.tree.readings pid
      readings.stat = stat → readings.status = status → host.kernel.Akin kernel →
        ((attributes pid release).on host).1 = .ok (core.map
          ((readings.additions host.kernel.users host.kernel.groups).complete (commandOf stat))) := by
  obtain ⟨core, hCore⟩ := resolve_completes pid hStat status (fun _ => True) kernel
  have hResolve : ∀ (readings : Readings) (host : Host Kernel), readings.stat = stat →
      readings.status = status → host.kernel.Akin kernel →
        ((resolve pid readings).outcome.on host).1 = .ok
          ((readings.additions host.kernel.users host.kernel.groups).complete (commandOf stat) <$>
            core) := by
    rintro readings host rfl rfl hAkin
    exact (hCore ⟨readings, host, hAkin⟩ host ⟨rfl, trivial, rfl, rfl, .refl _⟩).1
  refine ⟨core.toOption, ?_⟩
  intro release host readings hSame hSameStatus hAkin
  rw [attributes_on, Attempt.on_orNote, hResolve _ host hSame hSameStatus hAkin]
  cases core <;> rfl

/-- An aspect whose call comes to nothing is unknown. -/
theorem without_of_silent {aspect : Aspect} {pid : Int32} {host : Host Kernel}
    (hSilent : Silent aspect pid host) (command : Option (List Char)) (b : Attributes) :
    let a := ((host.kernel.tree.readings pid).additions host.kernel.users
      host.kernel.groups).complete command b
    a.without "" (String.ofList (command.getD [])) aspect = a := by
  cases aspect with
  | path =>
      have hPath : (host.kernel.tree.readings pid).executable = none := hSilent
      have hEmpty : executablePath none = [] := rfl
      have hName : processName [] command = command.getD [] := rfl
      simp [Readings.additions, Additions.complete, Attributes.without, hPath, hEmpty, hName]
  | directory =>
      have hDirectory : (host.kernel.tree.readings pid).workingDirectory = none := hSilent
      simp [Readings.additions, Additions.complete, Attributes.without, Attributes.unknown,
        hDirectory]
  | user =>
      rw [Silent] at hSilent
      simp [Readings.additions, Additions.complete, Attributes.without, Attributes.unknown, hSilent]
  | group =>
      rw [Silent] at hSilent
      simp [Readings.additions, Additions.complete, Attributes.without, Attributes.unknown, hSilent]
  | transfers =>
      have hTransfers : (host.kernel.tree.readings pid).io = none := hSilent
      have hCount (label : String) : (Listing.ofText []).number label = 0 := rfl
      simp [Readings.additions, Additions.complete, Attributes.without, Attributes.unknown,
        hTransfers, hCount]
  | openFiles =>
      have hFiles : (host.kernel.tree.readings pid).openFiles = none := hSilent
      simp [Readings.additions, Additions.complete, Attributes.without, Attributes.unknown, hFiles]
  | bitness =>
      have hImage : (host.kernel.tree.readings pid).image = none := hSilent
      have hWidth : bitness none = .ok 0 := rfl
      simp [Readings.additions, Additions.complete, Attributes.without, Attributes.unknown, hImage,
        hWidth, Except.toOption]
  | times | memory => exact hSilent.elim

theorem source_isolates : source.Isolates probing where
  isolated aspect pid release host host' hApart path name := by
    have hStat := hApart.stat_eq
    by_cases hCrossed : host'.kernel.tree.Crossed pid
    case pos =>
      -- Both looks are broken off by one and the same line.
      have hCrossed' : host.kernel.tree.Crossed pid := by
        obtain ⟨line, hLine, hCrossed⟩ := hCrossed
        exact ⟨line, hStat.trans hLine, hCrossed⟩
      rw [source, (attributes_crossed hCrossed release host' (.refl host')).1,
        (attributes_crossed hCrossed' release host (.refl host)).1]
    case neg =>
      obtain ⟨core, hCore⟩ := exists_attributes_eq pid
        (Tree.not_crossed_of_readings hCrossed) (host'.kernel.tree.readings pid).status host'.kernel
      rw [source, hCore release host hStat hApart.status_eq hApart.akin,
        hCore release host' rfl rfl (.refl _)]
      refine congrArg Except.ok ?_
      rw [Option.map_map, Option.map_map]
      exact congrArg (Option.map · core) (funext fun b => hApart.without_eq _ b path name)
  unknown aspect pid release host a hSilent hAttributes := by
    have hCrossed : ¬host.kernel.tree.Crossed pid := by
      intro hCrossed
      rw [source, (attributes_crossed hCrossed release host (.refl host)).1] at hAttributes
      cases hAttributes
    obtain ⟨core, hCore⟩ := exists_attributes_eq pid
      (Tree.not_crossed_of_readings hCrossed) (host.kernel.tree.readings pid).status host.kernel
    rw [source, hCore release host rfl rfl (.refl _)] at hAttributes
    obtain ⟨b, -, rfl⟩ := Option.map_eq_some_iff.mp (Except.ok.inj hAttributes)
    exact without_of_silent hSilent _ b

end ProcessCensus.Linux
