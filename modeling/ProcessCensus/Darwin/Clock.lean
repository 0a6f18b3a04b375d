import ProcessCensus.Darwin.Kernel

/-!
The kernel's clock. It counts in units of its own, and a ratio of the kernel turns them into
nanoseconds.
-/

namespace ProcessCensus.Darwin

/-- A clock that counts in nanoseconds. -/
def nanoseconds : Timebase := ⟨1, 1⟩

/-- Asks for the timebase. If the kernel does not tell it, the clock is taken to count in
nanoseconds. -/
def readTimebase : Run Kernel Timebase := do
  let (timebase, code) := (← Run.kernel).clock
  if code ≠ 0 ∨ timebase.denominator = 0 then
    Run.note (.timebaseUnknown code)
    return nanoseconds
  else return timebase

/-- The timebase. It is read at the first use and never again. -/
def timebase : Run Kernel Timebase := do
  let (timebase, memo) ← (← Run.kernel).timebase.obtain 0 readTimebase
  Run.call fun kernel => ((), { kernel with timebase := memo })
  return timebase

/-- A time of the clock in milliseconds: whole nanoseconds first, then whole milliseconds, and the
largest number if they do not fit. -/
def Timebase.toMillis (timebase : Timebase) (time : UInt64) : UInt64 :=
  let nanoseconds := time.toNat * timebase.numerator.toNat / timebase.denominator.toNat
  UInt64.ofNat (min (UInt64.size - 1) (nanoseconds / 1000000))

end ProcessCensus.Darwin
