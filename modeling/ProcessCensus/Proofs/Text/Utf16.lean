import ProcessCensus.Proofs.Text.Utf8
import ProcessCensus.Text.Utf16

/-!
Reading UTF-16 undoes writing it. A character takes one unit, which is no surrogate, or a pair of
surrogates in their order, so the reader never meets a surrogate without its partner.
-/

namespace ProcessCensus.Text.Utf16

theorem toNat_ofNat_of_lt {n : Nat} (hUnit : n < 0x10000) : (UInt16.ofNat n).toNat = n :=
  UInt16.toNat_ofNat_of_lt' hUnit

theorem isHigh_iff {u : UInt16} : isHigh u = true ↔ 0xd800 ≤ u.toNat ∧ u.toNat < 0xdc00 := by
  simp [isHigh, UInt16.le_iff_toNat_le, UInt16.lt_iff_toNat_lt]

theorem isLow_iff {u : UInt16} : isLow u = true ↔ 0xdc00 ≤ u.toNat ∧ u.toNat < 0xe000 := by
  simp [isLow, UInt16.le_iff_toNat_le, UInt16.lt_iff_toNat_lt]

theorem decodeLossy_single {u : UInt16} (hHigh : ¬isHigh u = true) (hLow : ¬isLow u = true)
    (rest : List UInt16) : decodeLossy (u :: rest) = Char.ofNat u.toNat :: decodeLossy rest := by
  cases rest with
  | nil => simp [decodeLossy, hHigh, hLow]
  | cons v rest => simp [decodeLossy, hHigh, hLow]

theorem decodeLossy_pair {high low : UInt16} (hHigh : isHigh high = true) (hLow : isLow low = true)
    (rest : List UInt16) :
    decodeLossy (high :: low :: rest) = pairChar high low :: decodeLossy rest := by
  simp [decodeLossy, hHigh, hLow]

/-- The units of a character are read as that character, whatever follows. -/
theorem decodeLossy_encodeChar (c : Char) (rest : List UInt16) :
    decodeLossy (encodeChar c ++ rest) = c :: decodeLossy rest := by
  obtain ⟨hLast, hScalar⟩ := Utf8.toNat_valid c
  rw [encodeChar]
  split
  case isTrue hOne =>
    have hUnit : (UInt16.ofNat c.toNat).toNat = c.toNat := toNat_ofNat_of_lt hOne
    rw [List.singleton_append, decodeLossy_single, hUnit, Char.ofNat_toNat]
    · rw [isHigh_iff, hUnit]
      omega
    · rw [isLow_iff, hUnit]
      omega
  case isFalse hTwo =>
    have hFirst : (UInt16.ofNat (0xd800 + (c.toNat - 0x10000) / 1024)).toNat =
        0xd800 + (c.toNat - 0x10000) / 1024 := toNat_ofNat_of_lt (by omega)
    have hSecond : (UInt16.ofNat (0xdc00 + (c.toNat - 0x10000) % 1024)).toNat =
        0xdc00 + (c.toNat - 0x10000) % 1024 := toNat_ofNat_of_lt (by omega)
    have hChar : 0x10000 + (0xd800 + (c.toNat - 0x10000) / 1024 - 0xd800) * 1024 +
        (0xdc00 + (c.toNat - 0x10000) % 1024 - 0xdc00) = c.toNat := by omega
    change decodeLossy (_ :: _ :: rest) = _
    rw [decodeLossy_pair, pairChar, hFirst, hSecond, hChar, Char.ofNat_toNat]
    · rw [isHigh_iff, hFirst]
      omega
    · rw [isLow_iff, hSecond]
      omega

theorem encode_cons (c : Char) (text : List Char) : encode (c :: text) = encodeChar c ++ encode text :=
  List.flatMap_cons

theorem decodeLossy_encode (text : List Char) : decodeLossy (encode text) = text := by
  induction text with
  | nil => rfl
  | cons c text ih => rw [encode_cons, decodeLossy_encodeChar, ih]

@[simp] theorem text_encode (string : String) : text (encode string.toList) = string := by
  rw [text, decodeLossy_encode, String.ofList_toList]

theorem zero_mem_encodeChar {c : Char} : 0 ∈ encodeChar c ↔ c = '\x00' := by
  have hLast := (Utf8.toNat_valid c).1
  have hZero : c = '\x00' ↔ c.toNat = 0 := by
    rw [← Char.toNat_inj]
    rfl
  have hUnit : ∀ n < 0x10000, (0 : UInt16) = .ofNat n ↔ n = 0 := by
    intro n hLt
    rw [← UInt16.toNat_inj, toNat_ofNat_of_lt hLt, eq_comm]
    rfl
  rw [hZero, encodeChar]
  split
  case isTrue hOne => rw [List.mem_singleton, hUnit _ hOne]
  case isFalse hTwo =>
    simp only [List.mem_cons, List.not_mem_nil, or_false,
      hUnit (0xd800 + (c.toNat - 0x10000) / 1024) (by omega),
      hUnit (0xdc00 + (c.toNat - 0x10000) % 1024) (by omega)]
    omega

/-- There is a zero unit for each zero character only. -/
theorem zero_mem_encode {text : List Char} : 0 ∈ encode text ↔ '\x00' ∈ text := by
  simp [encode, List.mem_flatMap, zero_mem_encodeChar]

end ProcessCensus.Text.Utf16
