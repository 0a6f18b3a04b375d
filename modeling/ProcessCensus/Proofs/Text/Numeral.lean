import ProcessCensus.Text.Numeral
import Mathlib.Data.List.Basic

/-!
Reading a decimal numeral undoes writing it, as long as the number fits in the machine word.
-/

namespace ProcessCensus.Text

/-- The decimal numeral of a number. -/
def numeral (n : Int) : List Char :=
  (toString n).toList

theorem numeral_natCast (n : Nat) : numeral n = Nat.toDigits 10 n :=
  Nat.toList_repr

theorem numeral_negSucc (n : Nat) : numeral (.negSucc n) = '-' :: Nat.toDigits 10 (n + 1) := by
  simp [numeral, Int.repr]

theorem isAsciiDigit_of_mem_toDigits {n : Nat} {c : Char} (hMem : c ∈ Nat.toDigits 10 n) :
    isAsciiDigit c = true := by
  have hDigit := Nat.isDigit_of_mem_toDigits (by decide) (by decide) hMem
  simpa [isAsciiDigit, Char.isDigit, Char.le_def] using hDigit

theorem mem_numeral {n : Int} {c : Char} (hMem : c ∈ numeral n) :
    isAsciiDigit c = true ∨ c = '-' := by
  cases n with
  | ofNat n =>
      rw [Int.ofNat_eq_natCast, numeral_natCast] at hMem
      exact .inl (isAsciiDigit_of_mem_toDigits hMem)
  | negSucc n =>
      rw [numeral_negSucc] at hMem
      rcases List.mem_cons.mp hMem with hSign | hDigit
      · exact .inr hSign
      · exact .inl (isAsciiDigit_of_mem_toDigits hDigit)

theorem le_ofDigitChars (digits : List Char) (value : Nat) :
    value ≤ Nat.ofDigitChars 10 digits value := by
  rw [Nat.ofDigitChars_eq_ofDigitChars_zero]
  exact Nat.le_trans (Nat.le_mul_of_pos_left value (Nat.pow_pos (by decide))) (Nat.le_add_right _ _)

/-- The bound is met at every digit if it is met at the end. -/
theorem valueBelow?_eq {bound : Nat} (digits : List Char) (value : Nat)
    (hBound : Nat.ofDigitChars 10 digits value < bound) :
    valueBelow? bound value digits = some (Nat.ofDigitChars 10 digits value) := by
  induction digits generalizing value with
  | nil => simp [valueBelow?]
  | cons c digits ih =>
      rw [Nat.ofDigitChars_cons, Nat.mul_comm] at hBound ⊢
      have hNext : value * 10 + digitValue c < bound :=
        Nat.lt_of_le_of_lt (le_ofDigitChars digits _) hBound
      rw [valueBelow?, if_pos hNext]
      exact ih _ hBound

theorem natural?_toDigits {n bound : Nat} (hBound : n < bound) :
    natural? bound (Nat.toDigits 10 n) = some n := by
  have hDigits : (Nat.toDigits 10 n).all isAsciiDigit = true :=
    List.all_eq_true.mpr fun c => isAsciiDigit_of_mem_toDigits
  have hValue := valueBelow?_eq (Nat.toDigits 10 n) 0 (by rwa [Nat.ofDigitChars_ten_toDigits])
  rw [Nat.ofDigitChars_ten_toDigits] at hValue
  simp [natural?, hDigits, hValue]

theorem lt_of_valueBelow? {bound value n : Nat} {digits : List Char} (hValue : value < bound)
    (hRead : valueBelow? bound value digits = some n) : n < bound := by
  induction digits generalizing value with
  | nil => exact Option.some.inj hRead ▸ hValue
  | cons c digits ih =>
      rw [valueBelow?] at hRead
      split at hRead
      case isTrue hNext => exact ih hNext hRead
      case isFalse => cases hRead

theorem lt_of_natural? {bound n : Nat} {text : List Char} (hRead : natural? bound text = some n) :
    n < bound := by
  rw [natural?] at hRead
  split at hRead
  case isFalse => cases hRead
  case isTrue hDigits =>
    obtain ⟨c, digits, rfl⟩ : ∃ c digits, text = c :: digits :=
      List.exists_cons_of_ne_nil (by simpa using (Bool.and_eq_true_iff.mp hDigits).1)
    rw [valueBelow?] at hRead
    split at hRead
    case isTrue hNext => exact lt_of_valueBelow? hNext hRead
    case isFalse => cases hRead

theorem lt_of_unsigned? {size n : Nat} {text : List Char} (hRead : unsigned? size text = some n) :
    n < size :=
  lt_of_natural? hRead

theorem exists_toDigits_eq_cons (n : Nat) :
    ∃ c rest, Nat.toDigits 10 n = c :: rest ∧ isAsciiDigit c = true := by
  obtain ⟨c, rest, hDigits⟩ := List.exists_cons_of_ne_nil (@Nat.toDigits_ne_nil n 10)
  exact ⟨c, rest, hDigits, isAsciiDigit_of_mem_toDigits (hDigits ▸ List.mem_cons_self)⟩

theorem dropPlus_toDigits (n : Nat) : dropPlus (Nat.toDigits 10 n) = Nat.toDigits 10 n := by
  obtain ⟨c, rest, hDigits, hFirst⟩ := exists_toDigits_eq_cons n
  rw [hDigits, dropPlus]
  rintro _ ⟨⟩
  cases hFirst

theorem unsigned?_numeral {n size : Nat} (hSize : n < size) :
    unsigned? size (numeral n) = some n := by
  rw [numeral_natCast, unsigned?, dropPlus_toDigits, natural?_toDigits hSize]

theorem signed?_numeral {n : Int} {size : Nat} (hLow : -((size / 2 : Nat) : Int) ≤ n)
    (hHigh : n < (size / 2 : Nat)) : signed? size (numeral n) = some n := by
  cases n with
  | ofNat n =>
      obtain ⟨c, rest, hDigits, hFirst⟩ := exists_toDigits_eq_cons n
      have hPlain : signed? size (numeral n) =
          (natural? (size / 2) (dropPlus (numeral n))).map fun value => (value : Int) := by
        rw [numeral_natCast, hDigits, signed?]
        rintro _ ⟨⟩
        cases hFirst
      rw [Int.ofNat_eq_natCast] at hHigh ⊢
      rw [hPlain, numeral_natCast, dropPlus_toDigits, natural?_toDigits (Int.ofNat_lt.mp hHigh)]
      rfl
  | negSucc n =>
      rw [numeral_negSucc, signed?, natural?_toDigits (by omega)]
      rfl

end ProcessCensus.Text
