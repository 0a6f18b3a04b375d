import ProcessCensus.Bytes
import Mathlib.Algebra.Order.Ring.Nat

/-!
Little-endian words as bytes and back, and what overwriting a part of a byte string leaves as it was.
-/

namespace ProcessCensus.Bytes

@[simp] theorem length_ofNat (width n : Nat) : (ofNat width n).length = width := by
  induction width generalizing n with
  | zero => rfl
  | succ width ih => rw [ofNat, List.length_cons, ih]

/-- A number that fits comes back from its bytes. -/
theorem toNat_ofNat {width n : Nat} (hFits : n < 256 ^ width) : toNat (ofNat width n) = n := by
  induction width generalizing n with
  | zero =>
      rw [pow_zero] at hFits
      rw [Nat.lt_one_iff.mp hFits]
      rfl
  | succ width ih =>
      rw [pow_succ] at hFits
      rw [ofNat, toNat, ih (Nat.div_lt_of_lt_mul (by rwa [Nat.mul_comm])), UInt8.toNat_ofNat']
      exact Nat.mod_add_div n 256

theorem toNat_lt (bytes : Bytes) : toNat bytes < 256 ^ bytes.length := by
  induction bytes with
  | nil => exact Nat.one_pos
  | cons b rest ih =>
      have hByte := b.toNat_lt
      rw [toNat, List.length_cons, pow_succ]
      omega

theorem toNat_take_lt (bytes : Bytes) (width : Nat) : toNat (bytes.take width) < 256 ^ width :=
  (toNat_lt _).trans_le (Nat.pow_le_pow_right (by decide) (List.length_take_le width bytes))

section Units

/-- Every unit is made of two bytes, and a last odd byte makes none. -/
theorem length_units (bytes : Bytes) : (units bytes).length = bytes.length / 2 := by
  induction bytes using units.induct with
  | case1 low high rest ih =>
      rw [units, List.length_cons, List.length_cons, List.length_cons, ih]
      omega
  | case2 bytes hShort =>
      have hLength : bytes.length < 2 := by
        rcases bytes with _ | ⟨low, _ | ⟨high, rest⟩⟩
        · exact Nat.zero_lt_two
        · exact Nat.one_lt_two
        · exact (hShort low high rest rfl).elim
      rw [units.eq_2 bytes hShort, Nat.div_eq_of_lt hLength]
      rfl

/-- A unit is made of the two bytes at twice its place, the low one first. -/
theorem getElem?_units {bytes : Bytes} {i : Nat} {unit : UInt16}
    (hUnit : (units bytes)[i]? = some unit) :
    ∃ low high, bytes[2 * i]? = some low ∧ bytes[2 * i + 1]? = some high ∧
      unit = UInt16.ofNat (low.toNat + 256 * high.toNat) := by
  induction bytes using units.induct generalizing i with
  | case1 low high rest ih =>
      cases i with
      | zero => exact ⟨low, high, rfl, rfl, (Option.some.inj hUnit).symm⟩
      | succ i => exact ih hUnit
  | case2 bytes hShort =>
      rw [units.eq_2 bytes hShort] at hUnit
      cases hUnit

theorem ofUnits_cons (unit : UInt16) (rest : List UInt16) :
    ofUnits (unit :: rest) = ofNat 2 unit.toNat ++ ofUnits rest :=
  List.flatMap_cons

@[simp] theorem length_ofUnits (units : List UInt16) : (ofUnits units).length = 2 * units.length := by
  induction units with
  | nil => rfl
  | cons unit rest ih =>
      rw [ofUnits_cons, List.length_append, length_ofNat, ih, List.length_cons]
      omega

/-- Units come back from their bytes, and those of what follows come behind them. -/
theorem units_ofUnits_append (text : List UInt16) (rest : Bytes) :
    units (ofUnits text ++ rest) = text ++ units rest := by
  induction text with
  | nil => rfl
  | cons unit text ih =>
      have hUnit : toNat (ofNat 2 unit.toNat) = unit.toNat := toNat_ofNat unit.toNat_lt
      rw [ofUnits_cons, List.append_assoc]
      change UInt16.ofNat _ :: units (ofUnits text ++ rest) = _
      rw [ih]
      congr 1
      exact (congrArg UInt16.ofNat hUnit).trans UInt16.ofNat_toNat

theorem units_ofUnits (text : List UInt16) : units (ofUnits text) = text := by
  rw [← List.append_nil (ofUnits text), units_ofUnits_append]
  exact List.append_nil text

end Units

section Slices

variable {offset start width count : Nat}

/-- What lies within the first bytes is the same there. -/
theorem slice_take (bytes : Bytes) (hWithin : offset + count ≤ width) :
    ((bytes.take width).drop offset).take count = (bytes.drop offset).take count := by
  rw [List.drop_take, List.take_take, Nat.min_eq_left (by omega)]

/-- A part of a part is a part of the whole. -/
theorem slice_slice (bytes : Bytes) (hWithin : offset + count ≤ width) :
    (((bytes.drop start).take width).drop offset).take count =
      (bytes.drop (start + offset)).take count := by
  rw [slice_take _ hWithin, List.drop_drop]

end Slices

section Overwriting

variable {bytes patch : Bytes} {offset : Nat}

@[simp] theorem length_overwrite (bytes : Bytes) (offset : Nat) (patch : Bytes) :
    (bytes.overwrite offset patch).length = bytes.length := by
  rw [overwrite, List.length_append, List.length_append, List.length_take, List.length_take,
    List.length_drop]
  omega

/-- What is written is read where it was written. -/
theorem slice_overwrite (hFits : offset + patch.length ≤ bytes.length) :
    ((bytes.overwrite offset patch).drop offset).take patch.length = patch := by
  have hFront : (bytes.take offset).length = offset := List.length_take_of_le (by omega)
  rw [overwrite, List.take_of_length_le (Nat.le_sub_of_add_le' hFits), List.append_assoc,
    List.drop_left' hFront, List.take_left' rfl]

theorem getElem?_overwrite_of_outside {i : Nat} (hOutside : i < offset ∨ offset + patch.length ≤ i) :
    (bytes.overwrite offset patch)[i]? = bytes[i]? := by
  have hFront : (bytes.take offset).length = min offset bytes.length := List.length_take
  have hPatch : (patch.take (bytes.length - offset)).length = min (bytes.length - offset) patch.length :=
    List.length_take
  rcases Nat.lt_or_ge i bytes.length with hInside | hBeyond
  · rw [overwrite, List.append_assoc]
    rcases hOutside with hBefore | hBehind
    · rw [List.getElem?_append_left (by omega), List.getElem?_take_of_lt hBefore]
    · rw [List.getElem?_append_right (by omega), List.getElem?_append_right (by omega),
        List.getElem?_drop]
      congr 1
      omega
  · rw [List.getElem?_eq_none hBeyond, List.getElem?_eq_none (by rwa [length_overwrite])]

/-- What lies beside the written bytes stays as it was. -/
theorem slice_overwrite_of_apart {other count : Nat}
    (hApart : other + count ≤ offset ∨ offset + patch.length ≤ other) :
    ((bytes.overwrite offset patch).drop other).take count = (bytes.drop other).take count := by
  refine List.ext_getElem? fun i => ?_
  rw [List.getElem?_take, List.getElem?_take]
  split
  · rw [List.getElem?_drop, List.getElem?_drop, getElem?_overwrite_of_outside (by omega)]
  · rfl

end Overwriting

end ProcessCensus.Bytes
