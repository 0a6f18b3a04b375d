import ProcessCensus.Proofs.Darwin.Resolver
import ProcessCensus.Proofs.Linux.Resolver
import ProcessCensus.Windows.FileTime
import Mathlib.Algebra.Order.Ring.Nat

/-!
Times in milliseconds. Each kernel counts in units of its own, and on the way to milliseconds a count is
divided twice, put together from halves or cut off at the largest number. Main statement: what comes
out is one exact quotient of the count, no step on the way leaves the words that it is taken in, and a
larger count never comes out as fewer milliseconds.
-/

namespace ProcessCensus

/-- A conversion of times tells the milliseconds that belong to the count in a time, and it keeps the
order of the counts. -/
structure Converts {τ : Type} (count : τ → Nat) (convert : τ → UInt64) (millis : Nat → Nat) :
    Prop where
  told : ∀ time, (convert time).toNat = millis (count time)
  ordered : ∀ earlier later, count earlier ≤ count later → convert earlier ≤ convert later

theorem Converts.of_monotone {τ : Type} {count : τ → Nat} {convert : τ → UInt64} {millis : Nat → Nat}
    (hTold : ∀ time, (convert time).toNat = millis (count time)) (hMillis : Monotone millis) :
    Converts count convert millis where
  told := hTold
  ordered earlier later hLe := by
    rw [UInt64.le_iff_toNat_le, hTold, hTold]
    exact hMillis hLe

namespace Linux

/-- Whatever the number of ticks in a second is; none of them counts as one. -/
theorem ticksToMillis_converts (rate : UInt64) :
    Converts UInt64.toNat (ticksToMillis rate)
      fun ticks => min (ticks * 1000) (2 ^ 64 - 1) / max 1 rate.toNat where
  told ticks := by
    rw [toNat_ticksToMillis, Nat.min_comm]
    rfl
  ordered _ _ hLe :=
    UInt64.le_iff_toNat_le.mpr (ticksToMillis_le rate (UInt64.le_iff_toNat_le.mpr hLe))

end Linux

namespace Windows.FileTime

/-- The number whose halves a time has. -/
def count (time : FileTime) : Nat := 2 ^ 32 * time.high.toNat + time.low.toNat

theorem count_lt (time : FileTime) : time.count < 2 ^ 64 := by
  have hLow := time.low.toNat_lt
  have hHigh := time.high.toNat_lt
  rw [count]
  omega

theorem toNat_units (time : FileTime) : time.units.toNat = time.count := by
  have hUnits : time.low.toNat + UInt32.size * time.high.toNat = time.count := Nat.add_comm _ _
  rw [units, hUnits, UInt64.toNat_ofNat_of_lt' time.count_lt]

/-- The halves share no bit, so they can be put together bit by bit. -/
theorem units_eq_or (time : FileTime) :
    time.units = time.high.toUInt64 <<< 32 ||| time.low.toUInt64 := by
  have hLow := time.low.toNat_lt
  have hHigh := time.high.toNat_lt
  have hShifted : (time.high.toUInt64 <<< 32).toNat = 2 ^ 32 * time.high.toNat := by
    rw [UInt64.toNat_shiftLeft, UInt32.toNat_toUInt64, show (32 : UInt64).toNat % 64 = 32 from rfl,
      Nat.shiftLeft_eq]
    omega
  rw [← UInt64.toNat_inj, toNat_units, count, UInt64.toNat_or, hShifted, UInt32.toNat_toUInt64]
  exact Nat.two_pow_add_eq_or_of_lt hLow _

/-- A number of 64 bits is put together again from the halves it is split into. -/
theorem count_ofUnits (units : UInt64) : (ofUnits units).count = units.toNat := by
  have hUnits := units.toNat_lt
  have hHigh : (units >>> 32).toNat = units.toNat / 2 ^ 32 := by
    rw [UInt64.toNat_shiftRight, show (32 : UInt64).toNat % 64 = 32 from rfl, Nat.shiftRight_eq_div_pow]
  rw [count, ofUnits, UInt64.toNat_toUInt32, UInt64.toNat_toUInt32, hHigh]
  omega

theorem count_injective : Function.Injective count := by
  rintro ⟨low, high⟩ ⟨low', high'⟩ hCount
  have hLow := low.toNat_lt
  have hLow' := low'.toNat_lt
  simp only [count] at hCount
  -- The low half is the remainder of the count, the high half its quotient.
  obtain rfl : low = low' := UInt32.toNat_inj.mp (by omega)
  obtain rfl : high = high' := UInt32.toNat_inj.mp (by omega)
  rfl

theorem existsUnique_count (units : UInt64) : ∃! time : FileTime, time.count = units.toNat :=
  ⟨ofUnits units, count_ofUnits units, fun _ hTime =>
    count_injective (hTime.trans (count_ofUnits units).symm)⟩

/-- Whether a year has a day more than others. -/
def isLeap (year : Nat) : Bool :=
  year % 4 = 0 && (year % 100 ≠ 0 || year % 400 = 0)

/-- Days from the start of one year to the start of another. -/
def daysBetween (first last : Nat) : Nat :=
  ((List.range' first (last - first)).map fun year => if isLeap year then 366 else 365).sum

theorem toNat_epochMillis (time : FileTime) :
    time.epochMillis.toNat = (time.count - 116444736000000000) / 10000 := by
  have hEpoch : epochUnits.toNat = 116444736000000000 := rfl
  rw [epochMillis]
  split
  case isTrue hBefore =>
    rw [UInt64.lt_iff_toNat_lt, toNat_units, hEpoch] at hBefore
    rw [Nat.sub_eq_zero_of_le hBefore.le]
    rfl
  case isFalse hAfter =>
    -- Only here does the difference of words not wrap around.
    rw [UInt64.not_lt, UInt64.le_iff_toNat_le] at hAfter
    rw [UInt64.toNat_div, UInt64.toNat_sub_of_le _ _ hAfter, toNat_units]
    rfl

/-- A point in time comes back as the millisecond of the epoch that it lies in. -/
theorem toNat_epochMillis_of_count {time : FileTime} {millis rest : Nat} (hRest : rest < 10000)
    (hCount : time.count = 116444736000000000 + 10000 * millis + rest) :
    time.epochMillis.toNat = millis := by
  rw [toNat_epochMillis]
  omega

/-- Points in time are counted from 1601, and the epoch is so many units later. One up to the epoch
counts as the epoch, and one after it comes back as the millisecond that it lies in. -/
structure CountsFrom (epoch : Nat) : Prop where
  date : epoch = daysBetween 1601 1970 * (24 * 60 * 60 * 10 ^ 7)
  halves : ∀ time : FileTime, time.units = time.high.toUInt64 <<< 32 ||| time.low.toUInt64
  unique : ∀ units : UInt64, ∃! time : FileTime, time.count = units.toNat
  converts : Converts count epochMillis fun units => if units ≤ epoch then 0 else (units - epoch) / 10000
  back : ∀ (time : FileTime) (millis rest : Nat), rest < 10000 →
    time.count = epoch + 10000 * millis + rest → time.epochMillis.toNat = millis

theorem countsFrom_epoch : CountsFrom 116444736000000000 where
  date := by decide +kernel
  halves := units_eq_or
  unique := existsUnique_count
  converts := by
    refine .of_monotone (fun time => ?_) fun units units' hLe => ?_
    · rw [toNat_epochMillis]
      split <;> omega
    · split <;> split <;> omega
  back _ _ _ := toNat_epochMillis_of_count

end Windows.FileTime

namespace Darwin

section Words

variable {w : Nat}

/-- The product of two words, unless it is too large for one. -/
def mulWords? (a b : BitVec w) : Option (BitVec w) :=
  if a.umulOverflow b then none else some (a * b)

/-- The quotient of two words, unless the divisor is 0. -/
def divWords? (a b : BitVec w) : Option (BitVec w) :=
  if b = 0 then none else some (a / b)

theorem exists_mulWords? {a b : BitVec w} (hFits : a.toNat * b.toNat < 2 ^ w) :
    ∃ product, mulWords? a b = some product ∧ product.toNat = a.toNat * b.toNat := by
  have hNone : ¬a.umulOverflow b := by
    rw [BitVec.umulOverflow, decide_eq_true_eq]
    exact Nat.not_le.mpr hFits
  exact ⟨a * b, if_neg hNone, BitVec.toNat_mul_of_not_umulOverflow hNone⟩

theorem exists_divWords? {a b : BitVec w} (hDivisor : b.toNat ≠ 0) :
    ∃ quotient, divWords? a b = some quotient ∧ quotient.toNat = a.toNat / b.toNat := by
  have hZero : b ≠ 0 := fun hZero => hDivisor (by rw [hZero]; rfl)
  exact ⟨a / b, if_neg hZero, BitVec.toNat_udiv⟩

end Words

/-- A word of 128 bits as one of 64, or the largest such word if it is larger than that. -/
def narrow (word : BitVec 128) : UInt64 :=
  if word.toNat < UInt64.size then UInt64.ofNat word.toNat else UInt64.ofNat (UInt64.size - 1)

theorem narrow_eq (word : BitVec 128) :
    narrow word = UInt64.ofNat (min (UInt64.size - 1) word.toNat) := by
  rw [narrow]
  split
  · rw [Nat.min_eq_right (by omega)]
  · rw [Nat.min_eq_left (by omega)]

namespace Timebase

/-- The milliseconds of a time, taken in words of 128 bits up to the last step. There are none if a
product is too large for a word, or if something is divided by 0. -/
def wideMillis? (timebase : Timebase) (time : UInt64) : Option UInt64 := do
  let product ← mulWords? (time.toBitVec.setWidth 128) (timebase.numerator.toBitVec.setWidth 128)
  let nanoseconds ← divWords? product (timebase.denominator.toBitVec.setWidth 128)
  let millis ← divWords? nanoseconds 1000000
  return narrow millis

/-- The product takes 96 bits at most. -/
theorem product_lt (timebase : Timebase) (time : UInt64) :
    time.toNat * timebase.numerator.toNat < 2 ^ 128 :=
  calc time.toNat * timebase.numerator.toNat
      < 2 ^ 64 * 2 ^ 32 := Nat.mul_lt_mul'' time.toNat_lt timebase.numerator.toNat_lt
    _ < 2 ^ 128 := by decide

theorem wideMillis?_eq {timebase : Timebase} (hDenominator : 0 < timebase.denominator) (time : UInt64) :
    timebase.wideMillis? time = some (timebase.toMillis time) := by
  have hTime : (time.toBitVec.setWidth 128).toNat = time.toNat :=
    BitVec.toNat_setWidth_of_le (by decide)
  have hWord (word : UInt32) : (word.toBitVec.setWidth 128).toNat = word.toNat :=
    BitVec.toNat_setWidth_of_le (by decide)
  -- The product fits and no divisor is 0, so each step has its exact result. Only the last one cuts.
  have hFits := timebase.product_lt time
  rw [← hTime, ← hWord timebase.numerator] at hFits
  obtain ⟨product, hProduct, hProductNat⟩ := exists_mulWords? hFits
  have hDivisor : (timebase.denominator.toBitVec.setWidth 128).toNat ≠ 0 := by
    rw [hWord]
    exact (UInt32.lt_iff_toNat_lt.mp hDenominator).ne'
  obtain ⟨nanoseconds, hNanoseconds, hNanosecondsNat⟩ := exists_divWords? (a := product) hDivisor
  obtain ⟨millis, hMillis, hMillisNat⟩ :=
    exists_divWords? (a := nanoseconds) (b := 1000000) (by decide)
  simp only [wideMillis?, hProduct, hNanoseconds, hMillis, Option.bind_eq_bind, Option.bind_some]
  rw [narrow_eq, hMillisNat, hNanosecondsNat, hProductNat, hTime, hWord, hWord]
  rfl

/-- Whole nanoseconds first and whole milliseconds then are the whole milliseconds. -/
theorem toNat_toMillis (timebase : Timebase) (time : UInt64) :
    (timebase.toMillis time).toNat = min (2 ^ 64 - 1)
      (time.toNat * timebase.numerator.toNat / (timebase.denominator.toNat * 10 ^ 6)) := by
  rw [toMillis, UInt64.toNat_ofNat_of_lt' (Nat.lt_of_le_of_lt (Nat.min_le_left _ _) (by decide)),
    Nat.div_div_eq_div_mul]
  rfl

/-- The milliseconds of a time are one exact quotient, cut off at the largest number, and no step on the
way to them leaves the words of 128 bits. -/
structure Exact (timebase : Timebase) : Prop where
  converts : Converts UInt64.toNat timebase.toMillis fun time => min (2 ^ 64 - 1)
    (time * timebase.numerator.toNat / (timebase.denominator.toNat * 10 ^ 6))
  wide : ∀ time, timebase.wideMillis? time = some (timebase.toMillis time)

theorem exact_of_pos {timebase : Timebase} (hDenominator : 0 < timebase.denominator) :
    timebase.Exact where
  converts := by
    refine .of_monotone timebase.toNat_toMillis fun time time' hLe => ?_
    exact min_le_min_left _ (Nat.div_le_div_right (Nat.mul_le_mul_right _ hLe))
  wide := wideMillis?_eq hDenominator

end Timebase

/-- The timebase that is used does not divide by 0 if the one read before does not. -/
theorem Kernel.denominator_ticks_pos {kernel : Kernel}
    (hKnown : ∀ timebase, kernel.timebase.fresh? 0 = some timebase → 0 < timebase.denominator) :
    0 < kernel.ticks.denominator :=
  ticks_of hKnown (by decide) UInt32.pos_iff_ne_zero.mpr

/-- So nothing breaks off while the two times of a process are converted. -/
theorem attributes_wideMillis (pid : Int32) (release : Release) {host : Host Kernel}
    (hKnown : ∀ timebase, host.kernel.timebase.fresh? 0 = some timebase → 0 < timebase.denominator)
    {a : Attributes} (hTold : ((attributes pid release).on host).1 = .ok (some a)) :
    ∃ record, found (taskRecord pid) host = some record ∧
      host.kernel.ticks.wideMillis? record.kernelTime = some a.kernelTime ∧
      host.kernel.ticks.wideMillis? record.userTime = some a.userTime := by
  rw [attributes_on] at hTold
  obtain ⟨record, hRecord, rfl⟩ := Option.map_eq_some_iff.mp (Except.ok.inj hTold)
  have hDenominator := Kernel.denominator_ticks_pos hKnown
  exact ⟨record, hRecord, Timebase.wideMillis?_eq hDenominator _,
    Timebase.wideMillis?_eq hDenominator _⟩

end Darwin

/-- Every conversion of times into milliseconds is exact and keeps the order: that of a Darwin clock
with any timebase, that of a Windows point in time, and that of Linux ticks, a hundred to the
second. -/
theorem milliseconds_exact :
    (∀ timebase : Darwin.Timebase, 0 < timebase.denominator → timebase.Exact) ∧
      Windows.FileTime.CountsFrom 116444736000000000 ∧
      Converts UInt64.toNat (Linux.ticksToMillis 100)
        fun ticks => min (ticks * 1000) (2 ^ 64 - 1) / 100 :=
  ⟨fun _ => Darwin.Timebase.exact_of_pos, Windows.FileTime.countsFrom_epoch,
    Linux.ticksToMillis_converts 100⟩

/-- A clock that has run full, with 125 nanoseconds in three ticks. -/
theorem milliseconds_exact_full :
    0 < (⟨125, 3⟩ : Darwin.Timebase).denominator ∧
      ((⟨125, 3⟩ : Darwin.Timebase).toMillis (.ofNat (2 ^ 64 - 1))).toNat = 768614336404564 ∧
      (⟨125, 3⟩ : Darwin.Timebase).wideMillis? (.ofNat (2 ^ 64 - 1)) =
        some ((⟨125, 3⟩ : Darwin.Timebase).toMillis (.ofNat (2 ^ 64 - 1))) := by
  have hExact : (⟨125, 3⟩ : Darwin.Timebase).Exact := milliseconds_exact.1 ⟨125, 3⟩ (by decide)
  exact ⟨by decide, hExact.converts.told _, hExact.wide _⟩

end ProcessCensus
