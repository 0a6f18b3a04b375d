import ProcessCensus.Proofs.Linux.Resolver

/-!
The times of a Linux process. The status line counts them in clock ticks, the start from that of the
system, which is read once and kept from then on.
-/

namespace ProcessCensus.Linux

/-- The start of a process on its status line, in clock ticks after the start of the system. -/
def Readings.startTicks? (readings : Readings) : Option UInt64 := do
  let fields ← Stat.split? (← readings.stat.toOption)
  (Stat.number fields Stat.startTicksField).toOption

/-- The times in the attributes are clock ticks in milliseconds, and the start is the one on the
status line, on a system that counts `rate` ticks in a second and started `boot` seconds after the
epoch. -/
structure Readings.Timed (readings : Readings) (rate boot : UInt64) (a : Attributes) : Prop where
  start : ∃ ticks, readings.startTicks? = some ticks ∧
    a.startTime = boot * 1000 + ticksToMillis rate ticks
  kernel : ∃ ticks, a.kernelTime = ticksToMillis rate ticks
  user : ∃ ticks, a.userTime = ticksToMillis rate ticks

section Resolve

variable {base : Kernel} {kept : Host Kernel → Prop} {name : UInt32 → Option String}
  {find : UInt32 → Run Kernel (Option String)}

theorem ownerName_leads
    (hFind : ∀ id host, ∃ journal, (find id).on host = (.ok (name id), { host with journal }))
    (id : UInt64) :
    Attempt.Leads (·.kernel = base) kept (fun _ host => host.kernel = base)
      (Attempt.lift (ownerName find id)) := by
  refine Attempt.leads_lift fun host hHost => ?_
  obtain ⟨journal, hName⟩ := ownerName_on hFind id host
  exact ⟨_, _, hName, hHost⟩

theorem bootTime_leads :
    Attempt.Leads (·.kernel = base) kept
      (fun boot host => host.kernel = base.dated ∧ boot = base.bootSeconds)
      (Attempt.lift bootTime) := by
  refine Attempt.leads_lift fun host hHost => ?_
  obtain ⟨journal, hBoot⟩ := bootTime_on host
  obtain rfl := hHost
  exact ⟨_, _, hBoot, rfl, rfl⟩

theorem bitness_leads {before : Host Kernel → Prop} (image : Option Bytes) :
    Attempt.Leads before kept (fun _ => before) (Attempt.lift (Run.read (bitness image))) := by
  obtain ⟨width, hWidth⟩ := bitness_eq_ok image
  rw [hWidth]
  exact Attempt.leads_lift fun host hHost => ⟨width, host, rfl, hHost⟩

/-- The start of a process that is told is reckoned from the start of the system, which is known from
then on. In any case nothing else about the kernel changes. -/
theorem resolve_leads (pid : Int32) (readings : Readings) (base : Kernel) :
    Attempt.Leads (·.kernel = base) (fun host => host.kernel = base ∨ host.kernel = base.dated)
      (fun a host => host.kernel = base.dated ∧ readings.Timed base.clockTicks base.bootSeconds a)
      (resolve pid readings) := by
  have hBefore : ∀ host : Host Kernel, host.kernel = base →
    host.kernel = base ∨ host.kernel = base.dated := fun _ => .inl
  rw [resolve]
  cases hStat : readings.stat with
  | error refusal => exact Attempt.leads_throw hBefore _
  | ok line =>
      simp only [pure_bind, Attempt.throw_bind]
      split
      case h_2 => exact fun host hHost => hBefore host hHost
      case h_1 fields hFields =>
        refine Attempt.leads_ofExcept_bind hBefore fun threads _ => ?_
        split
        case isTrue => exact Attempt.leads_throw hBefore _
        case isFalse =>
          split
          case' h_1 => split
          case' h_1.isTrue => exact Attempt.leads_throw hBefore _
          -- The start of the system is asked for between the numbers on the status line.
          all_goals
            refine Attempt.leads_ofExcept_bind hBefore fun startTicks hStart => ?_
            refine Attempt.leads_kernel_bind ?_
            refine (ownerName_leads (Accounts.userName_on _) _).bind fun _ => ?_
            refine (ownerName_leads (Accounts.groupName_on _) _).bind fun _ => ?_
            iterate 6 refine Attempt.leads_ofExcept_bind hBefore fun _ _ => ?_
            refine bootTime_leads.bind fun boot => (bitness_leads _).bind fun _ => ?_
            iterate 2 refine Attempt.leads_ofExcept_bind (fun _ hHost => .inr hHost.1) fun _ _ => ?_
            refine Attempt.leads_pure fun host hHost =>
              ⟨hHost.1, ⟨startTicks, ?_, ?_⟩, ⟨_, rfl⟩, ⟨_, rfl⟩⟩
            · rw [Readings.startTicks?, hStat]
              simp [Except.toOption, hFields, hStart]
            · rw [hHost.2]

end Resolve

/-- A look tells the times of the process, and then the start of the system is known; or it tells
nothing. -/
theorem attributes_timed (pid : Int32) (release : Release) (host : Host Kernel) :
    (∃ a last, (source.attributes pid release).on host = (.ok (some a), last) ∧
        last.kernel = host.kernel.dated ∧
        (host.kernel.tree.readings pid).Timed host.kernel.clockTicks host.kernel.bootSeconds a) ∨
      ∃ outcome last, (source.attributes pid release).on host = (outcome, last) ∧
        outcome.toOption.join = none ∧
        (last.kernel = host.kernel ∨ last.kernel = host.kernel.dated) := by
  change (∃ a last, (attributes pid release).on host = _ ∧ _) ∨
    ∃ outcome last, (attributes pid release).on host = _ ∧ _
  rw [attributes_on]
  exact (resolve_leads pid _ host.kernel).orNote (fun _ _ => id) _ rfl

end ProcessCensus.Linux
