import ProcessCensus.Proofs.Darwin.Resolver
import ProcessCensus.Proofs.Linux.Times
import ProcessCensus.Proofs.Windows.Resolver
import Mathlib.Algebra.Order.Ring.Nat
import Mathlib.Tactic.Ring

/-!
The time a process has spent on a processor. It is the sum of two times that a source tells, and that
sum is taken without a check. No source tells more of each than half of what a number can hold,
whatever the kernel counts in its own units, as long as two of these make a millisecond on Darwin, and a
second on Linux, at most.
-/

namespace ProcessCensus

/-- The two times in the attributes add up to a number of 64 bits. -/
def Attributes.TimesFit (a : Attributes) : Prop :=
  a.kernelTime.toNat + a.userTime.toNat ≤ 2 ^ 64 - 1

theorem Attributes.timesFit_of_half {a : Attributes} (hKernel : a.kernelTime.toNat ≤ 2 ^ 63 - 1)
    (hUser : a.userTime.toNat ≤ 2 ^ 63 - 1) : a.TimesFit := by
  rw [TimesFit]
  omega

/-- The processor time of a snapshot is the sum of the two times. -/
theorem Snapshot.toNat_processorTime {snapshot : Snapshot} (hFit : snapshot.attributes.TimesFit) :
    snapshot.processorTime.toNat =
      snapshot.attributes.kernelTime.toNat + snapshot.attributes.userTime.toNat := by
  rw [processorTime, UInt64.toNat_add]
  rw [Attributes.TimesFit] at hFit
  omega

/-- A snapshot shows the two times that were answered, or none at all. -/
theorem Snapshot.timesFit_taken (release : Release) (clock : Int) (pid : Int32)
    {answer : Option Attributes} (hFit : ∀ a, answer = some a → a.TimesFit) :
    (taken release clock pid answer).attributes.TimesFit := by
  have hNone : Attributes.unknown.TimesFit := Attributes.timesFit_of_half (by decide) (by decide)
  change (Attributes.validated answer _).TimesFit
  cases answer with
  | none => exact hNone
  | some a =>
      rw [Attributes.validated]
      split
      · exact hFit a rfl
      · exact hNone

/-- On a steady host the two times of each process that is told add up to a number of 64 bits, and so a
snapshot has their sum. -/
structure Source.TimesFit {κ : Type} (source : Source κ) (steady : Host κ → Prop) : Prop where
  attributes : ∀ pid release host a, steady host →
    ((source.attributes pid release).on host).1 = .ok (some a) → a.TimesFit
  batch : ∀ pids release host answers, steady host →
    ((source.batch pids release).on host).1 = .ok answers → ∀ a, some a ∈ answers → a.TimesFit
  probe : ∀ pid release host snapshot, steady host →
    ((Snapshot.probe source pid release).on host).1 = .ok snapshot →
    snapshot.processorTime.toNat =
      snapshot.attributes.kernelTime.toNat + snapshot.attributes.userTime.toNat

theorem Source.TimesFit.of_told {κ : Type} {source : Source κ} {steady : Host κ → Prop}
    (hAttributes : ∀ pid release host a, steady host →
      ((source.attributes pid release).on host).1 = .ok (some a) → a.TimesFit)
    (hBatch : ∀ pids release host answers, steady host →
      ((source.batch pids release).on host).1 = .ok answers → ∀ a, some a ∈ answers → a.TimesFit) :
    source.TimesFit steady := by
  refine ⟨hAttributes, hBatch, fun pid release host snapshot hHost hProbe => ?_⟩
  obtain ⟨answer, after, hAnswer, hTaken⟩ := Run.of_on_bind hProbe
  cases hTaken
  refine Snapshot.toNat_processorTime (Snapshot.timesFit_taken release after.clock pid fun a hTold => ?_)
  exact hAttributes pid release host a hHost (by rw [hAnswer, hTold])

theorem Source.TimesFit.of_readEach {κ : Type} {source : Source κ} {steady : Host κ → Prop}
    (hBatch : source.batch = Source.readEach source.attributes)
    (hSteady : ∀ pid release host, steady host → steady ((source.attributes pid release).on host).2)
    (hAttributes : ∀ pid release host a, steady host →
      ((source.attributes pid release).on host).1 = .ok (some a) → a.TimesFit) :
    source.TimesFit steady := by
  refine .of_told hAttributes fun pids release host answers hHost hAnswers => ?_
  rw [hBatch] at hAnswers
  exact forall_readEach (fun pid host hHost =>
    ⟨hSteady pid release host hHost, fun a => hAttributes pid release host a hHost⟩) pids hHost hAnswers

namespace Linux

/-- There are two clock ticks in a second at least. It is customary to tell of a hundred. -/
def Kernel.Fine (kernel : Kernel) : Prop :=
  2 ≤ kernel.clockTicks

theorem Kernel.Customary.fine {kernel : Kernel} (hUnits : kernel.Customary) : kernel.Fine := by
  rw [Fine, hUnits.clockTicks]
  decide

/-- Ticks are multiplied before they are divided, but the product is cut off. -/
theorem ticksToMillis_le_half {rate : UInt64} (hRate : 2 ≤ rate) (ticks : UInt64) :
    (ticksToMillis rate ticks).toNat ≤ 2 ^ 63 - 1 := by
  have hTwo : 2 ≤ max 1 rate.toNat :=
    (UInt64.le_iff_toNat_le.mp hRate).trans (Nat.le_max_right _ _)
  rw [toNat_ticksToMillis]
  calc min (UInt64.size - 1) (ticks.toNat * 1000) / max 1 rate.toNat
      ≤ (UInt64.size - 1) / max 1 rate.toNat := Nat.div_le_div_right (Nat.min_le_left _ _)
    _ ≤ (UInt64.size - 1) / 2 := Nat.div_le_div_left hTwo (by decide)
    _ = 2 ^ 63 - 1 := by decide

theorem attributes_timesFit (pid : Int32) (release : Release) {host : Host Kernel}
    (hFine : host.kernel.Fine) {a : Attributes}
    (hTold : ((source.attributes pid release).on host).1 = .ok (some a)) : a.TimesFit := by
  rcases attributes_timed pid release host with ⟨b, _, hOn, _, hTimed⟩ | ⟨outcome, _, hOn, hNone, _⟩
  all_goals rw [hOn] at hTold
  · obtain rfl : b = a := Option.some.inj (Except.ok.inj hTold)
    obtain ⟨kernelTicks, hKernel⟩ := hTimed.kernel
    obtain ⟨userTicks, hUser⟩ := hTimed.user
    refine Attributes.timesFit_of_half ?_ ?_
    · rw [hKernel]
      exact ticksToMillis_le_half hFine kernelTicks
    · rw [hUser]
      exact ticksToMillis_le_half hFine userTicks
  · obtain rfl : outcome = .ok (some a) := hTold
    cases hNone

/-- A look leaves the units as they are. -/
theorem attributes_clockTicks (pid : Int32) (release : Release) (host : Host Kernel) :
    ((source.attributes pid release).on host).2.kernel.clockTicks = host.kernel.clockTicks := by
  rcases attributes_timed pid release host with
    ⟨_, _, hOn, hKernel, _⟩ | ⟨_, _, hOn, _, hKernel | hKernel⟩
  all_goals
    exact (congrArg (·.2.kernel.clockTicks) hOn).trans (congrArg Kernel.clockTicks hKernel)

theorem source_timesFit : source.TimesFit (·.kernel.Fine) := by
  refine .of_readEach rfl (fun pid release host hFine => ?_)
    fun pid release host a hFine => attributes_timesFit pid release hFine
  rwa [Kernel.Fine, attributes_clockTicks]

end Linux

namespace Windows

theorem FileTime.millis_le_half (time : FileTime) : time.millis.toNat ≤ 2 ^ 63 - 1 := by
  have hUnits := time.units.toNat_lt
  rw [millis, UInt64.toNat_div, show unitsPerMilli.toNat = 10000 from rfl]
  omega

theorem timesFit_settleName {a : Attributes} (hFit : a.TimesFit) : (settleName a).TimesFit := by
  rw [settleName_eq]
  exact hFit

/-- Times that the kernel does not tell are none at all. -/
theorem Row.timesFit_of_told {row : Row} {opening : Except Int32 Handle} {a : Attributes}
    (hTold : row.told opening = some a) : a.TimesFit := by
  rw [Row.told.eq_def] at hTold
  split at hTold
  case isTrue => cases hTold
  case isFalse =>
    split at hTold
    case h_1 handle =>
      cases hTold
      refine timesFit_settleName (Attributes.timesFit_of_half ?_ ?_)
      all_goals
        dsimp only [Handle.enter]
        cases handle.times.toOption
      · exact Nat.zero_le _
      · exact FileTime.millis_le_half _
      · exact Nat.zero_le _
      · exact FileTime.millis_le_half _
    case h_2 code =>
      split at hTold
      case isTrue => cases hTold
      case isFalse =>
        cases hTold
        exact timesFit_settleName (Attributes.timesFit_of_half (Nat.zero_le _) (Nat.zero_le _))

theorem Kernel.timesFit_of_told {kernel : Kernel} {table : Except Failure Table} {pid : Int32}
    {a : Attributes} (hTold : kernel.told table pid = some a) : a.TimesFit := by
  obtain ⟨rows, -, hRow⟩ := Option.bind_eq_some_iff.mp hTold
  obtain ⟨row, -, hRow⟩ := Option.bind_eq_some_iff.mp hRow
  exact Row.timesFit_of_told hRow

theorem source_timesFit : source.TimesFit fun _ => True := by
  refine .of_told (fun pid release host a _ hTold => ?_)
    fun pids release host answers _ hAnswers a hMem => ?_
  case refine_1 =>
    have hYields := (attributes_yields host.kernel pid release host (.refl host)).1
    rw [show (source.attributes pid release).on host = (attributes pid release).on host from rfl,
      hYields] at hTold
    obtain ⟨table, -, hTold⟩ := Run.exists_ok_of_map hTold
    exact Kernel.timesFit_of_told hTold
  case refine_2 =>
    have hYields := (batch_yields host.kernel pids release host (.refl host)).1
    rw [show (source.batch pids release).on host = (batch pids release).on host from rfl,
      hYields] at hAnswers
    obtain ⟨table, -, rfl⟩ := Run.exists_ok_of_map hAnswers
    obtain ⟨pid, -, hTold⟩ := List.mem_map.mp hMem
    exact Kernel.timesFit_of_told hTold

end Windows

namespace Darwin

/-- A tick of the clock takes half a millisecond at most. -/
structure Timebase.Fine (timebase : Timebase) : Prop where
  denominator : 0 < timebase.denominator
  tick : timebase.numerator.toNat ≤ 500000 * timebase.denominator.toNat

/-- Two ticks of such a clock make a millisecond at most. -/
theorem Timebase.Fine.toMillis_le_half {timebase : Timebase} (hFine : timebase.Fine) (time : UInt64) :
    (timebase.toMillis time).toNat ≤ 2 ^ 63 - 1 := by
  have hTime : time.toNat ≤ 2 ^ 64 - 1 := by
    have hLt := time.toNat_lt
    omega
  have hDenominator : 0 < timebase.denominator.toNat := UInt32.lt_iff_toNat_lt.mp hFine.denominator
  have hNanoseconds :
      time.toNat * timebase.numerator.toNat / timebase.denominator.toNat ≤ time.toNat * 500000 := by
    refine Nat.div_le_of_le_mul ?_
    calc time.toNat * timebase.numerator.toNat
        ≤ time.toNat * (500000 * timebase.denominator.toNat) := Nat.mul_le_mul_left _ hFine.tick
      _ = timebase.denominator.toNat * (time.toNat * 500000) := by ring
  have hSize : UInt64.size = 2 ^ 64 := rfl
  rw [toMillis, UInt64.toNat_ofNat_of_lt' (by omega)]
  omega

/-- The timebase that is used is fine if the one read before is, or else the one that is told. -/
theorem Kernel.fine_ticks {kernel : Kernel}
    (hKnown : ∀ timebase, kernel.timebase.fresh? 0 = some timebase → timebase.Fine)
    (hTold : kernel.clock.1.Fine) : kernel.ticks.Fine :=
  ticks_of hKnown ⟨by decide, by decide⟩ fun _ => hTold

theorem attributes_timesFit (pid : Int32) (release : Release) {host : Host Kernel}
    (hFine : host.kernel.ticks.Fine) {a : Attributes}
    (hTold : ((source.attributes pid release).on host).1 = .ok (some a)) : a.TimesFit := by
  rw [show (source.attributes pid release).on host = (attributes pid release).on host from rfl,
    attributes_on] at hTold
  obtain ⟨record, -, rfl⟩ := Option.map_eq_some_iff.mp (Except.ok.inj hTold)
  exact Attributes.timesFit_of_half (hFine.toMillis_le_half _) (hFine.toMillis_le_half _)

theorem source_timesFit : source.TimesFit (·.kernel.ticks.Fine) := by
  refine .of_readEach rfl (fun pid release host hFine => ?_)
    fun pid release host a hFine => attributes_timesFit pid release hFine
  rw [← attributes_ticks pid release host] at hFine
  exact hFine

end Darwin

/-- Whatever a kernel counts, the two times that are told of a process can be added; on Darwin if two
ticks of the clock take a millisecond at most, and on Linux if they take a second at most. -/
theorem processor_time_fits :
    Linux.source.TimesFit (·.kernel.Fine) ∧ Windows.source.TimesFit (fun _ => True) ∧
      Darwin.source.TimesFit (·.kernel.ticks.Fine) :=
  ⟨Linux.source_timesFit, Windows.source_timesFit, Darwin.source_timesFit⟩

namespace Darwin

/-- The record of a process with one thread, for which both counters of time have run full. -/
def tirelessRecord : Bytes :=
  (Bytes.overwrite (.replicate 232 0) 152 (.replicate 16 0xff)).overwrite 220 [1]

/-- A kernel with that record. A tick of its clock takes half a millisecond. -/
def tireless : Host Kernel where
  kernel := {
    replies := [(.processInfo 7 2, .always (.data tirelessRecord none))]
    sizes := []
    users := []
    groups := []
    clock := (⟨500000, 1⟩, 0)
    timebase := .forever
    argumentLimit := .forever
    ownPid := 1 }
  clock := 0
  journal := []

end Darwin

/-- On Darwin the sum comes as close to the largest number as it can, and on Linux the product is cut off
for one of the two times. -/
theorem processor_time_fits_tireless :
    (Linux.crookedHost.kernel.Fine ∧
      ∃ a, ((Linux.source.attributes 7 ⟨6, 8⟩).on Linux.crookedHost).1 = .ok (some a) ∧
        a.TimesFit ∧ a.kernelTime.toNat = 184467440737095516 ∧ a.userTime.toNat = 250) ∧
    Darwin.tireless.kernel.ticks.Fine ∧
      ∃ a, ((Darwin.source.attributes 7 ⟨10, 8⟩).on Darwin.tireless).1 = .ok (some a) ∧
        a.TimesFit ∧ a.kernelTime.toNat + a.userTime.toNat = 2 ^ 64 - 2 := by
  have hLinux : Linux.crookedHost.kernel.Fine := Linux.Kernel.Customary.fine ⟨rfl, rfl⟩
  have hSpent : (Option.map fun a => (a.kernelTime.toNat, a.userTime.toNat)) <$>
      ((Linux.source.attributes 7 ⟨6, 8⟩).on Linux.crookedHost).1 =
        .ok (some (184467440737095516, 250)) := by decide +kernel
  have hFine : Darwin.tireless.kernel.ticks.Fine :=
    Darwin.Kernel.fine_ticks (fun _ hKnown => by cases hKnown) ⟨by decide, by decide⟩
  have hTimes : (Option.map fun a => (a.kernelTime.toNat, a.userTime.toNat)) <$>
      ((Darwin.source.attributes 7 ⟨10, 8⟩).on Darwin.tireless).1 =
        .ok (some (2 ^ 63 - 1, 2 ^ 63 - 1)) := by decide +kernel
  obtain ⟨a, hTold, hSum⟩ := Run.exists_some_of_map hTimes
  obtain ⟨hKernel, hUser⟩ := Prod.mk.inj hSum
  obtain ⟨b, hTold', hSum'⟩ := Run.exists_some_of_map hSpent
  obtain ⟨hKernel', hUser'⟩ := Prod.mk.inj hSum'
  refine ⟨⟨hLinux, b, hTold', ?_, hKernel', hUser'⟩, ?_⟩
  · exact processor_time_fits.1.attributes 7 ⟨6, 8⟩ _ b hLinux hTold'
  exact ⟨hFine, a, hTold, processor_time_fits.2.2.attributes 7 ⟨10, 8⟩ _ a hFine hTold, by omega⟩

end ProcessCensus
