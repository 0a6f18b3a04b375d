import ProcessCensus.Snapshot
import ProcessCensus.Text.Lowercase

/-!
Ways to choose processes and to rank them.
-/

namespace ProcessCensus

/-- A choice of processes. -/
abbrev Choice := Snapshot → Bool

/-- A way to rank processes. -/
abbrev Ranking := Snapshot → Snapshot → Ordering

namespace Choice

/-- Every process. -/
def everything : Choice :=
  fun _ => true

/-- The processes that were there. -/
def valid : Choice :=
  fun p => p.attributes.state != .invalid

/-- The processes that are their own parent. -/
def ownParent : Choice :=
  fun p => p.attributes.parent == p.pid

/-- The processes with addresses of 64 bits. -/
def wide : Choice :=
  fun p => p.attributes.bitness == 64

/-- The processes with addresses of 32 bits. -/
def narrow : Choice :=
  fun p => p.attributes.bitness == 32

end Choice

namespace Ranking

/-- The ranking by a key, the smallest first. -/
def ascending {α : Type} [Ord α] (key : Snapshot → α) : Ranking :=
  fun a b => compare (key a) (key b)

/-- The ranking by a key, the largest first. -/
def descending {α : Type} [Ord α] (key : Snapshot → α) : Ranking :=
  fun a b => compare (key b) (key a)

/-- No process comes before another. -/
def level : Ranking :=
  fun _ _ => .eq

/-- A load as a number that grows with it. A load is never negative and never undefined, and for
such numbers the bits do. -/
def loadKey (snapshot : Snapshot) : UInt64 :=
  snapshot.load.toBits

/-- The busiest process first. -/
def byLoad : Ranking :=
  descending loadKey

/-- The largest process in memory first. -/
def byResidentSize : Ranking :=
  descending (·.attributes.residentSize)

/-- The youngest process first. -/
def byUpTime : Ranking :=
  ascending (·.attributes.upTime)

/-- The oldest process first. -/
def byUpTimeDescending : Ranking :=
  descending (·.attributes.upTime)

/-- The smallest pid first. -/
def byPid : Ranking :=
  ascending (·.pid)

/-- The smallest pid of a parent first. -/
def byParent : Ranking :=
  ascending (·.attributes.parent)

/-- The name in lower case, as code points. -/
def nameKey (snapshot : Snapshot) : List Nat :=
  (Text.lowercase snapshot.attributes.name.toList).map Char.toNat

/-- Names in alphabetical order of code points, with no regard to case. -/
def byName : Ranking :=
  fun a b => List.compareLex compare (nameKey a) (nameKey b)

end Ranking

end ProcessCensus
