/-!
Byte strings and the little-endian words in them.
-/

namespace ProcessCensus

/-- A byte string. -/
abbrev Bytes := List UInt8

namespace Bytes

/-- The number whose little-endian digits in base 256 are the bytes. -/
def toNat : Bytes → Nat
  | [] => 0
  | b :: rest => b.toNat + 256 * toNat rest

/-- The lowest `width` bytes of a number, the least significant first. -/
def ofNat : Nat → Nat → Bytes
  | 0, _ => []
  | width + 1, n => UInt8.ofNat n :: ofNat width (n / 256)

/-- The little-endian 16-bit units of a byte string. A last odd byte is left out. -/
def units : Bytes → List UInt16
  | low :: high :: rest => UInt16.ofNat (low.toNat + 256 * high.toNat) :: units rest
  | _ => []

/-- The bytes of a list of 16-bit units, the low byte of each first. -/
def ofUnits (units : List UInt16) : Bytes :=
  units.flatMap fun u => ofNat 2 u.toNat

/-- The byte string with `patch` written over it from `offset` on. Its length stays: what would
reach past the end is left out. -/
def overwrite (bytes : Bytes) (offset : Nat) (patch : Bytes) : Bytes :=
  bytes.take offset ++ patch.take (bytes.length - offset) ++ bytes.drop (offset + patch.length)

end Bytes

end ProcessCensus
