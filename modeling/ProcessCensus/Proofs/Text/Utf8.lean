import ProcessCensus.Text.Utf8
import Mathlib.Algebra.Order.Ring.Nat

/-!
Reading UTF-8 undoes writing it, strictly and lossily. The reader takes one byte at a time, so the
argument follows the bytes of one character, by their number, and then the text. Whatever the bytes
are, ASCII characters are read from bytes of their own, and the text comes apart at them.
-/

namespace ProcessCensus.Text.Utf8

theorem toNat_ofNat_of_lt {n : Nat} (hByte : n < 256) : (UInt8.ofNat n).toNat = n := by
  rw [UInt8.toNat_ofNat']
  exact Nat.mod_eq_of_lt hByte

/-- Code points of characters are below the last one, and no surrogates. -/
theorem toNat_valid (c : Char) :
    c.toNat < 0x110000 ∧ (c.toNat < 0xd800 ∨ 0xdfff < c.toNat) := by
  have hValid := c.valid
  simp only [UInt32.isValidChar, Nat.isValidChar] at hValid
  change c.val.toNat < 0x110000 ∧ (c.val.toNat < 0xd800 ∨ 0xdfff < c.val.toNat)
  omega

/-- The bytes of a character are those that the core library gives it. -/
theorem encodeChar_eq (c : Char) : encodeChar c = String.utf8EncodeChar c := by
  have hLast := (toNat_valid c).1
  simp only [encodeChar, String.utf8EncodeChar, Char.toNat] at hLast ⊢
  generalize c.val.toNat = n at hLast ⊢
  have hLate : n % 0x40 + 0x80 = 0x80 + n % 64 := Nat.add_comm _ _
  have hMiddle : n / 64 % 0x40 + 0x80 = 0x80 + n / 64 % 64 := Nat.add_comm _ _
  have hEarly : n / 4096 % 0x40 + 0x80 = 0x80 + n / 4096 % 64 := Nat.add_comm _ _
  rw [hLate, hMiddle, hEarly]
  rcases Nat.lt_or_ge n 0x80 with hOne | hOne
  · rw [if_pos hOne, if_pos (show n ≤ 0x7f by omega)]
  · rw [if_neg (show ¬n < 0x80 by omega), if_neg (show ¬n ≤ 0x7f by omega)]
    rcases Nat.lt_or_ge n 0x800 with hTwo | hTwo
    · rw [if_pos hTwo, if_pos (show n ≤ 0x7ff by omega),
        show n / 64 % 0x20 + 0xc0 = 0xc0 + n / 64 by omega]
    · rw [if_neg (show ¬n < 0x800 by omega), if_neg (show ¬n ≤ 0x7ff by omega)]
      rcases Nat.lt_or_ge n 0x10000 with hThree | hThree
      · rw [if_pos hThree, if_pos (show n ≤ 0xffff by omega),
          show n / 4096 % 0x10 + 0xe0 = 0xe0 + n / 4096 by omega]
      · rw [if_neg (show ¬n < 0x10000 by omega), if_neg (show ¬n ≤ 0xffff by omega),
          show n / 262144 % 0x08 + 0xf0 = 0xf0 + n / 262144 by omega]

/-- A first byte without a second one is a character. -/
theorem afterLead_one {b : Nat} (hHigh : b < 0x80) :
    afterLead b = ([some (Char.ofNat b)], .lead) := by
  rw [afterLead, if_pos hHigh]

theorem afterLead_two {b : Nat} (hLow : 0xc2 ≤ b) (hHigh : b < 0xe0) :
    afterLead b = ([], .tail (b - 0xc0) 0 0x80 0xbf) := by
  rw [afterLead, if_neg (by omega), if_neg (by omega), if_pos hHigh]

theorem afterLead_three {b : Nat} (hLow : 0xe0 ≤ b) (hHigh : b < 0xf0) :
    afterLead b = ([], .tail (b - 0xe0) 1 (if b = 0xe0 then 0xa0 else 0x80)
      (if b = 0xed then 0x9f else 0xbf)) := by
  rw [afterLead, if_neg (by omega), if_neg (by omega), if_neg (by omega), if_pos hHigh]

theorem afterLead_four {b : Nat} (hLow : 0xf0 ≤ b) (hHigh : b < 0xf5) :
    afterLead b = ([], .tail (b - 0xf0) 2 (if b = 0xf0 then 0x90 else 0x80)
      (if b = 0xf4 then 0x8f else 0xbf)) := by
  rw [afterLead, if_neg (by omega), if_neg (by omega), if_neg (by omega), if_neg (by omega),
    if_pos hHigh]

theorem scan_cons (expect : Expect) (b : UInt8) (rest : Bytes) :
    scan expect (b :: rest) = (step expect b.toNat).1 ++ scan (step expect b.toNat).2 rest := by
  cases expect <;> rfl

/-- A first byte that lacks others, as a number. -/
theorem scan_lead {b : Nat} {next : Expect} (hByte : b < 256) (hLead : afterLead b = ([], next))
    (rest : Bytes) : scan .lead (.ofNat b :: rest) = scan next rest := by
  rw [scan_cons, toNat_ofNat_of_lt hByte, step, hLead]
  rfl

/-- A later byte, the last one of its character or not, as a number. -/
theorem scan_tail {value owed low high b : Nat} (hLow : low ≤ b) (hHigh : b ≤ high)
    (hByte : b < 256) (rest : Bytes) :
    scan (.tail value (owed + 1) low high) (.ofNat b :: rest) =
      scan (.tail (value * 64 + (b - 0x80)) owed 0x80 0xbf) rest := by
  rw [scan_cons, toNat_ofNat_of_lt hByte, step, if_pos ⟨hLow, hHigh⟩]
  rfl

theorem scan_last {value low high b : Nat} (hLow : low ≤ b) (hHigh : b ≤ high)
    (hByte : b < 256) (rest : Bytes) :
    scan (.tail value 0 low high) (.ofNat b :: rest) =
      some (Char.ofNat (value * 64 + (b - 0x80))) :: scan .lead rest := by
  rw [scan_cons, toNat_ofNat_of_lt hByte, step, if_pos ⟨hLow, hHigh⟩]
  rfl

/-- The reader finds the character whose bytes it is given, and is then ready for the next. -/
theorem scan_encodeChar (c : Char) (rest : Bytes) :
    scan .lead (encodeChar c ++ rest) = some c :: scan .lead rest := by
  obtain ⟨hLast, hSurrogate⟩ := toNat_valid c
  have hChar : ∀ n, n = c.toNat → Char.ofNat n = c := by
    rintro n rfl
    exact Char.ofNat_toNat c
  rw [encodeChar]
  generalize c.toNat = n at *
  split
  case isTrue hOne =>
    rw [List.singleton_append, scan_cons, toNat_ofNat_of_lt (by omega), step, afterLead_one hOne,
      hChar n rfl]
    rfl
  case isFalse hOne =>
    split
    case isTrue hTwo =>
      rw [List.cons_append, List.singleton_append,
        scan_lead (by omega) (afterLead_two (by omega) (by omega)),
        scan_last (by omega) (by omega) (by omega), hChar _ (by omega)]
    case isFalse hTwo =>
      split
      case isTrue hThree =>
        rw [List.cons_append, List.cons_append, List.singleton_append,
          scan_lead (by omega) (afterLead_three (by omega) (by omega)),
          scan_tail (by split <;> omega) (by split <;> omega) (by omega),
          scan_last (by omega) (by omega) (by omega), hChar _ (by omega)]
      case isFalse hThree =>
        rw [List.cons_append, List.cons_append, List.cons_append, List.singleton_append,
          scan_lead (by omega) (afterLead_four (by omega) (by omega)),
          scan_tail (by split <;> omega) (by split <;> omega) (by omega),
          scan_tail (by omega) (by omega) (by omega),
          scan_last (by omega) (by omega) (by omega), hChar _ (by omega)]

theorem scan_encode (text : List Char) (rest : Bytes) :
    scan .lead (encode text ++ rest) = text.map some ++ scan .lead rest := by
  induction text with
  | nil => rfl
  | cons c text ih =>
      rw [encode, List.flatMap_cons, List.append_assoc, scan_encodeChar, ← encode, ih]
      rfl

theorem decodeLossy_encode (text : List Char) : decodeLossy (encode text) = text := by
  have hScan := scan_encode text []
  rw [List.append_nil] at hScan
  simp [decodeLossy, hScan, scan, Function.comp_def]

theorem decode?_encode (text : List Char) : decode? (encode text) = some text := by
  have hScan := scan_encode text []
  rw [List.append_nil] at hScan
  rw [decode?, hScan, scan, List.append_nil, List.mapM_map]
  exact List.mapM_pure.trans (congrArg some (List.map_id text))

/-- The numbers from `first` up to `past` are code points of characters outside ASCII. -/
def Scalars (first past : Nat) : Prop :=
  0x80 ≤ first ∧ (past ≤ 0xd800 ∨ 0xe000 ≤ first ∧ past ≤ 0x110000)

theorem Scalars.narrow {first past first' past' : Nat} (hScalars : Scalars first past)
    (hFirst : first ≤ first') (hPast : past' ≤ past) : Scalars first' past' := by
  unfold Scalars at *
  omega

theorem toNat_ofNat_of_valid {n : Nat} (hValid : n.isValidChar) : (Char.ofNat n).toNat = n := by
  rw [Char.ofNat, dif_pos hValid]
  rfl

theorem Scalars.toNat_ofNat {first past n : Nat} (hScalars : Scalars first past)
    (hFirst : first ≤ n) (hPast : n < past) : (Char.ofNat n).toNat = n := by
  apply toNat_ofNat_of_valid
  unfold Scalars at hScalars
  unfold Nat.isValidChar
  omega

/-- The reader owes bytes that no ASCII character supplies, and whatever they complete is a character
outside ASCII. The bounds are those of what the bytes still to come can make of the value. -/
def Expect.Sound : Expect → Prop
  | .lead => True
  | .tail value owed low high =>
    0x80 ≤ low ∧ Scalars ((value * 64 + (low - 0x80)) * 64 ^ owed)
      ((value * 64 + (high - 0x80) + 1) * 64 ^ owed)

theorem sound_afterLead (b : Nat) : (afterLead b).2.Sound := by
  rw [afterLead]
  split
  · trivial
  split
  · trivial
  split
  · simp only [Expect.Sound, Scalars]
    omega
  split
  · simp only [Expect.Sound, Scalars]
    grind
  split
  · simp only [Expect.Sound, Scalars]
    grind
  · trivial

theorem Expect.Sound.step {expect : Expect} (hExpect : expect.Sound) (b : Nat) :
    (Utf8.step expect b).2.Sound := by
  cases expect with
  | lead => exact sound_afterLead b
  | tail value owed low high =>
      obtain ⟨hLow, hScalars⟩ := hExpect
      rw [Utf8.step.eq_def]
      dsimp only
      split
      case isFalse => exact sound_afterLead b
      case isTrue hByte =>
        cases owed with
        | zero => trivial
        | succ owed =>
            refine ⟨Nat.le_refl _, hScalars.narrow ?_ ?_⟩
            · rw [Nat.pow_succ', ← Nat.mul_assoc]
              apply Nat.mul_le_mul_right
              omega
            · rw [Nat.pow_succ', ← Nat.mul_assoc]
              apply Nat.mul_le_mul_right
              omega

/-- An ASCII character breaks off whatever is being read, and stands for itself. -/
theorem step_ascii {expect : Expect} (hExpect : expect.Sound) {b : Nat} (hAscii : b < 0x80)
    (rest : Bytes) : (step expect b).1 ++ scan (step expect b).2 rest =
      scan expect [] ++ some (Char.ofNat b) :: scan .lead rest := by
  cases expect with
  | lead =>
      rw [step, afterLead_one hAscii]
      rfl
  | tail value owed low high =>
      have hLow : 0x80 ≤ low := hExpect.1
      rw [step.eq_def]
      simp only [if_neg fun hByte : low ≤ b ∧ b ≤ high => absurd hByte.1 (by omega),
        afterLead_one hAscii]
      rfl

theorem scan_append_cons {expect : Expect} (hExpect : expect.Sound) {b : UInt8}
    (hAscii : b.toNat < 0x80) (before after : Bytes) :
    scan expect (before ++ b :: after) =
      scan expect before ++ some (Char.ofNat b.toNat) :: scan .lead after := by
  induction before generalizing expect with
  | nil => rw [List.nil_append, scan_cons, step_ascii hExpect hAscii]
  | cons first before ih =>
      rw [List.cons_append, scan_cons, scan_cons, ih (hExpect.step first.toNat), List.append_assoc]

/-- Text comes apart at the bytes that are ASCII characters. -/
theorem decode?_append_cons {b : UInt8} (hAscii : b.toNat < 0x80) (before after : Bytes) :
    decode? (before ++ b :: after) = (decode? before).bind fun first =>
      (decode? after).map fun second => first ++ Char.ofNat b.toNat :: second := by
  rw [decode?, @scan_append_cons .lead trivial b hAscii, List.mapM_append, List.mapM_cons]
  rw [← decode?, ← decode?]
  cases decode? before <;> cases decode? after <;> rfl

theorem eq_of_mem_afterLead {b : Nat} {c : Char} (hMem : some c ∈ (afterLead b).1) :
    c = Char.ofNat b := by
  rw [afterLead] at hMem
  split at hMem
  case isTrue => simpa using hMem
  case isFalse => grind

theorem toNat_of_mem_afterLead {b : Nat} (hByte : b < 256) {c : Char}
    (hMem : some c ∈ (afterLead b).1) : c.toNat = b := by
  rw [eq_of_mem_afterLead hMem]
  apply toNat_ofNat_of_valid
  unfold Nat.isValidChar
  omega

/-- An ASCII character is completed by its own byte only. -/
theorem toNat_of_mem_step {expect : Expect} (hExpect : expect.Sound) {b : Nat} (hByte : b < 256)
    {c : Char} (hMem : some c ∈ (step expect b).1) (hAscii : c.toNat < 0x80) : c.toNat = b := by
  cases expect with
  | lead => exact toNat_of_mem_afterLead hByte hMem
  | tail value owed low high =>
      obtain ⟨hLow, hScalars⟩ := hExpect
      rw [step.eq_def] at hMem
      dsimp only at hMem
      split at hMem
      case isFalse => exact toNat_of_mem_afterLead hByte (by simpa using hMem)
      case isTrue hRange =>
        cases owed with
        | succ owed => simp at hMem
        | zero =>
            rw [List.mem_singleton, Option.some.injEq] at hMem
            have hLast : c.toNat = value * 64 + (b - 0x80) := by
              rw [hMem]
              apply hScalars.toNat_ofNat <;> omega
            have hFirst := hScalars.1
            omega

theorem mem_of_mem_scan {expect : Expect} (hExpect : expect.Sound) {bytes : Bytes} {c : Char}
    (hMem : some c ∈ scan expect bytes) (hAscii : c.toNat < 0x80) : .ofNat c.toNat ∈ bytes := by
  induction bytes generalizing expect with
  | nil => cases expect <;> simp [scan] at hMem
  | cons b bytes ih =>
      rw [scan_cons, List.mem_append] at hMem
      rcases hMem with hStep | hRest
      · rw [toNat_of_mem_step hExpect b.toNat_lt hStep hAscii, UInt8.ofNat_toNat]
        exact List.mem_cons_self
      · exact List.mem_cons_of_mem b (ih (hExpect.step b.toNat) hRest)

/-- Lossy decoding makes no zero characters. -/
theorem zero_mem_of_mem_text {bytes : Bytes} (hMem : '\x00' ∈ (text bytes).toList) : 0 ∈ bytes := by
  rw [text, String.toList_ofList, decodeLossy, List.mem_map] at hMem
  obtain ⟨mark, hMark, hZero⟩ := hMem
  cases mark with
  | none => cases hZero
  | some c =>
      obtain rfl : c = '\x00' := hZero
      exact @mem_of_mem_scan .lead trivial bytes _ hMark (by decide)

/-- Well-formed bytes leave characters only. -/
theorem scan_eq_of_decode? {bytes : Bytes} {text : List Char} (hText : decode? bytes = some text) :
    scan .lead bytes = text.map some := by
  rw [decode?] at hText
  generalize scan .lead bytes = marks at hText ⊢
  induction marks generalizing text with
  | nil =>
      obtain rfl := Option.some.inj hText
      rfl
  | cons mark marks ih =>
      cases mark with
      | none => cases hText
      | some c =>
          rw [List.mapM_cons] at hText
          cases hRest : List.mapM id marks with
          | none =>
              rw [hRest] at hText
              cases hText
          | some rest =>
              rw [hRest] at hText
              obtain rfl := Option.some.inj hText
              rw [ih hRest]
              rfl

/-- The ASCII characters of a text are among its bytes. -/
theorem mem_of_mem_decode? {bytes : Bytes} {text : List Char} (hText : decode? bytes = some text)
    {c : Char} (hMem : c ∈ text) (hAscii : c.toNat < 0x80) : .ofNat c.toNat ∈ bytes := by
  have hScan : some c ∈ scan .lead bytes := by
    rw [scan_eq_of_decode? hText]
    exact List.mem_map_of_mem hMem
  exact @mem_of_mem_scan .lead trivial bytes c hScan hAscii

theorem ascii_mem_encodeChar {ascii c : Char} (hAscii : ascii.toNat < 0x80) :
    .ofNat ascii.toNat ∈ encodeChar c ↔ c = ascii := by
  have hLast := (toNat_valid c).1
  have hByte : ∀ n < 256, (UInt8.ofNat ascii.toNat) = .ofNat n ↔ n = ascii.toNat := by
    intro n hLt
    rw [← UInt8.toNat_inj, toNat_ofNat_of_lt hLt, toNat_ofNat_of_lt (by omega), eq_comm]
  rw [← Char.toNat_inj, encodeChar]
  generalize c.toNat = n at hLast ⊢
  split
  case isTrue hOne => simp [hByte n (by omega)]
  case isFalse hOne =>
    have hTail : ∀ m, UInt8.ofNat ascii.toNat ≠ .ofNat (0x80 + m % 64) := by
      intro m hEq
      have hNone := (hByte (0x80 + m % 64) (by omega)).mp hEq
      omega
    split
    case isTrue hTwo =>
      simp only [List.mem_cons, List.not_mem_nil, or_false, hTail, hByte (0xc0 + n / 64) (by omega)]
      omega
    case isFalse hTwo =>
      split
      case isTrue hThree =>
        simp only [List.mem_cons, List.not_mem_nil, or_false, hTail,
          hByte (0xe0 + n / 4096) (by omega)]
        omega
      case isFalse hThree =>
        simp only [List.mem_cons, List.not_mem_nil, or_false, hTail,
          hByte (0xf0 + n / 262144) (by omega)]
        omega

theorem zero_mem_encodeChar {c : Char} : 0 ∈ encodeChar c ↔ c = '\x00' :=
  @ascii_mem_encodeChar '\x00' c (by decide)

/-- The byte of an ASCII character stands for that character only. -/
theorem ascii_mem_encode {ascii : Char} {text : List Char} (hAscii : ascii.toNat < 0x80) :
    .ofNat ascii.toNat ∈ encode text ↔ ascii ∈ text := by
  simp [encode, List.mem_flatMap, ascii_mem_encodeChar hAscii]

/-- There is a zero byte for each zero character only. -/
theorem zero_mem_encode {text : List Char} : 0 ∈ encode text ↔ '\x00' ∈ text :=
  @ascii_mem_encode '\x00' text (by decide)

theorem encodeChar_ne_nil (c : Char) : encodeChar c ≠ [] := by
  rw [encodeChar_eq]
  exact String.utf8EncodeChar_ne_nil

theorem encode_eq_nil {text : List Char} : encode text = [] ↔ text = [] := by
  rw [encode, List.flatMap_eq_nil_iff]
  constructor
  · intro hEmpty
    exact List.eq_nil_iff_forall_not_mem.mpr fun c hMem => encodeChar_ne_nil c (hEmpty c hMem)
  · rintro rfl c hMem
    cases hMem

theorem encode_append (first second : List Char) :
    encode (first ++ second) = encode first ++ encode second :=
  List.flatMap_append

theorem utf8Encode_eq (text : List Char) : text.utf8Encode = (encode text).toByteArray := by
  rw [List.utf8Encode, encode, funext encodeChar_eq]

/-- The bytes of texts are those that the core library takes for well formed. -/
theorem isValidUTF8_iff {content : Bytes} :
    content.toByteArray.IsValidUTF8 ↔ ∃ text, encode text = content := by
  constructor
  · rintro ⟨text, hText⟩
    rw [utf8Encode_eq, List.toByteArray_inj] at hText
    exact ⟨text, hText.symm⟩
  · rintro ⟨text, rfl⟩
    exact ⟨text, (utf8Encode_eq text).symm⟩

/-- The bytes of a string. -/
def bytes (string : String) : Bytes :=
  encode string.toList

/-- They are the bytes that the string consists of. -/
theorem toByteArray_bytes (string : String) : (bytes string).toByteArray = string.toByteArray := by
  rw [← String.utf8Encode_toList, utf8Encode_eq, bytes]

@[simp] theorem text_bytes (string : String) : text (bytes string) = string := by
  rw [text, bytes, decodeLossy_encode, String.ofList_toList]

theorem zero_mem_bytes {string : String} : 0 ∈ bytes string ↔ '\x00' ∈ string.toList :=
  zero_mem_encode

theorem bytes_eq_nil {string : String} : bytes string = [] ↔ string = "" := by
  rw [bytes, encode_eq_nil, String.toList_eq_nil_iff]

end ProcessCensus.Text.Utf8
