import ProcessCensus.Census.Order
import Mathlib.Algebra.Order.Ring.Int

/-!
The load of a process is a double without a minus sign: it is packed from a quotient of two numbers
that have none. Among such doubles the total order is that of the bits, so to rank processes by the
bits of their loads is to rank them by the total order of doubles.
-/

namespace ProcessCensus.Load

open Float.Model Float.Model.UnpackedFloat

/-- Zero, a positive number, infinity, or no number at all. -/
def Unsigned : UnpackedFloat → Prop
  | .notANumber => True
  | .infinity sign | .zero sign | .finite sign _ _ _ => sign = .positive

variable {spec : Format}

theorem unsigned_ite {p : Prop} [Decidable p] {yes no : UnpackedFloat} (hYes : Unsigned yes)
    (hNo : Unsigned no) : Unsigned (if p then yes else no) := by
  split
  · exact hYes
  · exact hNo

theorem unsigned_dite {p : Prop} [Decidable p] {yes : p → UnpackedFloat}
    {no : ¬p → UnpackedFloat} (hYes : ∀ h, Unsigned (yes h)) (hNo : ∀ h, Unsigned (no h)) :
    Unsigned (dite p yes no) := by
  split
  · exact hYes _
  · exact hNo _

theorem unsigned_roundWithAccuracy (mantissa : Nat) (exponent : Int) (accuracy : Accuracy) :
    Unsigned (roundWithAccuracy spec .positive mantissa exponent accuracy) := by
  rw [roundWithAccuracy]
  exact unsigned_dite (fun _ => rfl) fun _ => rfl

theorem unsigned_ofNat (n : Nat) : Unsigned (UnpackedFloat.ofNat spec n) := by
  rw [UnpackedFloat.ofNat, UnpackedFloat.ofInt, UnpackedFloat.normalize]
  cases hSign : compare (n : Int) 0 with
  | lt =>
      rw [Int.compare_eq_lt] at hSign
      omega
  | eq => rfl
  | gt => exact unsigned_roundWithAccuracy _ _ _

theorem Unsigned.div {dividend divisor : UnpackedFloat} (hDividend : Unsigned dividend)
    (hDivisor : Unsigned divisor) : Unsigned (UnpackedFloat.div spec dividend divisor) := by
  cases dividend <;> cases divisor <;> cases hDividend <;> cases hDivisor
  case finite.finite => exact unsigned_roundWithAccuracy _ _ _
  all_goals trivial

theorem Unsigned.exists_components (spec : Format) {number : UnpackedFloat}
    (hNumber : Unsigned number) :
    ∃ exponent mantissa,
      UnpackedFloat.pack spec number = packComponents spec .positive exponent mantissa := by
  cases number with
  | notANumber => exact ⟨_, _, rfl⟩
  | infinity sign =>
      obtain rfl : sign = .positive := hNumber
      exact ⟨_, _, rfl⟩
  | zero sign =>
      obtain rfl : sign = .positive := hNumber
      exact ⟨_, _, rfl⟩
  | finite sign mantissa exponent hPositive =>
      obtain rfl : sign = .positive := hNumber
      change ∃ _ _, ite _ _ (ite _ _ _) = _
      split
      · exact ⟨_, _, rfl⟩
      · split <;> exact ⟨_, _, rfl⟩

theorem toNat_packComponents_lt (exponent : BitVec spec.exponentBits)
    (mantissa : BitVec spec.mantissaBitsWithoutImplicit) :
    (packComponents spec .positive exponent mantissa).toNat <
      2 ^ (spec.exponentBits + spec.mantissaBitsWithoutImplicit) := by
  have hSign : (Sign.toBitVec .positive).toNat = 0 := rfl
  rw [packComponents, BitVec.toNat_append, BitVec.toNat_append, hSign, Nat.zero_shiftLeft,
    Nat.zero_or]
  apply Nat.or_lt_two_pow
  · rw [Nat.shiftLeft_eq, Nat.pow_add]
    exact Nat.mul_lt_mul_of_pos_right exponent.isLt (Nat.two_pow_pos _)
  · apply Nat.lt_of_lt_of_le mantissa.isLt
    exact Nat.pow_le_pow_right (by decide) (Nat.le_add_left _ _)

theorem unpackSign_packComponents (exponent : BitVec spec.exponentBits)
    (mantissa : BitVec spec.mantissaBitsWithoutImplicit) :
    unpackSign (packComponents spec .positive exponent mantissa) = 0#1 := by
  ext i hBit
  obtain rfl : i = 0 := by omega
  delta unpackSign packComponents
  simp [Sign.toBitVec, BitVec.getLsbD_append, BitVec.getElem_append]

theorem unsigned_unpack {bits : BitVec spec.numBits} (hSign : unpackSign bits = 0#1) :
    Unsigned (UnpackedFloat.unpack spec bits) := by
  have hPositive : Sign.ofBitVec (unpackSign bits) = .positive := by
    rw [hSign]
    rfl
  delta UnpackedFloat.unpack
  apply unsigned_ite
  · exact unsigned_ite hPositive trivial
  · apply unsigned_ite
    · exact unsigned_dite (fun _ => hPositive) fun _ => hPositive
    · exact hPositive

theorem Unsigned.unpack_pack {number : UnpackedFloat} (hNumber : Unsigned number) :
    Unsigned (UnpackedFloat.unpack spec (UnpackedFloat.pack spec number)) := by
  obtain ⟨exponent, mantissa, hPack⟩ := hNumber.exists_components spec
  rw [hPack]
  exact unsigned_unpack (unpackSign_packComponents exponent mantissa)

theorem toBits_pack_lt {number : UnpackedFloat} (hNumber : Unsigned number) :
    (Float.Model.pack number).toBits.toNat < 2 ^ 63 := by
  obtain ⟨exponent, mantissa, hPack⟩ := hNumber.exists_components .binary64
  have hBits := toNat_packComponents_lt exponent mantissa
  rw [← hPack] at hBits
  exact hBits

/-- No load has a minus sign. -/
theorem toBits_load_lt (snapshot : Snapshot) : snapshot.load.toBits.toNat < 2 ^ 63 := by
  rw [Snapshot.load]
  split
  case isTrue => decide
  case isFalse =>
    apply toBits_pack_lt
    apply Unsigned.div
    · exact (unsigned_ofNat _).unpack_pack
    · exact (unsigned_ofNat _).unpack_pack

/-- The place of a double in the total order of all doubles: first those with a minus sign, from the
largest bits down, and then the others, from the smallest bits up. -/
def place (number : Float) : Int :=
  if number.toBits.toNat < 2 ^ 63 then number.toBits.toNat
  else 2 ^ 63 - 1 - number.toBits.toNat

-- The two zeros are told apart.
example : place (-2) < place (-1) ∧ place (-1) < place (-0) ∧ place (-0) < place 0 ∧
    place 0 < place 1 := by
  decide

theorem place_load (snapshot : Snapshot) : place snapshot.load = snapshot.load.toBits.toNat :=
  if_pos (toBits_load_lt snapshot)

theorem byLoad_eq (a b : Snapshot) :
    Ranking.byLoad a b = compare (place b.load) (place a.load) := by
  rw [place_load, place_load, Ranking.byLoad, Ranking.descending, Ranking.loadKey, Ranking.loadKey]
  simp only [compare, compareOfLessAndEq, UInt64.lt_iff_toNat_lt, ← UInt64.toNat_inj,
    Int.ofNat_lt, Int.ofNat_inj]

end ProcessCensus.Load
