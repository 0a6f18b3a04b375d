/-!
Times of Windows. They count units of 100 nanoseconds and come in two halves. A point in time is
counted from the start of the year 1601.
-/

namespace ProcessCensus.Windows

/-- A time in its two halves. -/
structure FileTime where
  low : UInt32
  high : UInt32
deriving DecidableEq

namespace FileTime

/-- Units in a millisecond. -/
def unitsPerMilli : UInt64 := 10000

/-- Units between the start of 1601 and the epoch. -/
def epochUnits : UInt64 := 116444736000000000

/-- The time whose units are given. -/
def ofUnits (units : UInt64) : FileTime :=
  { low := units.toUInt32, high := (units >>> 32).toUInt32 }

/-- The units of a time. -/
def units (time : FileTime) : UInt64 :=
  UInt64.ofNat (time.low.toNat + UInt32.size * time.high.toNat)

/-- A length of time in milliseconds. -/
def millis (time : FileTime) : UInt64 :=
  time.units / unitsPerMilli

/-- A point in time in milliseconds of the epoch; one before it counts as the epoch. -/
def epochMillis (time : FileTime) : UInt64 :=
  if time.units < epochUnits then 0 else (time.units - epochUnits) / unitsPerMilli

end FileTime

end ProcessCensus.Windows
