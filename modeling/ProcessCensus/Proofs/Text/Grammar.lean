import ProcessCensus.Proofs.Text.Blank

/-!
What is taken for a number. Main statements: a numeral is read if it is one or more ASCII digits, with
or without a sign in front, whose value fits in the machine word, and in no other case; and what
trimming leaves of a text is what stands between its white space.
-/

namespace ProcessCensus.Text

/-- `front` is the longest run of characters with the property at the start of the text, and `rest` is
what follows it. -/
structure Spans (p : Char → Bool) (text front rest : List Char) : Prop where
  text_eq : text = front ++ rest
  holds : ∀ c ∈ front, p c = true
  longest : ∀ c ∈ rest.head?, p c = false

/-- One or more ASCII digits, and the number that they denote. -/
structure Denotes (digits : List Char) (n : Nat) : Prop where
  ne_nil : digits ≠ []
  digit : ∀ c ∈ digits, isAsciiDigit c = true
  value : Nat.ofDigitChars 10 digits 0 = n

/-- Digits with or without a plus sign. -/
inductive Unsigned : List Char → Nat → Prop
  | plain {digits : List Char} {n : Nat} (hDigits : Denotes digits n) : Unsigned digits n
  | plus {digits : List Char} {n : Nat} (hDigits : Denotes digits n) : Unsigned ('+' :: digits) n

/-- Digits with or without a sign. -/
inductive Signed : List Char → Int → Prop
  | unsigned {text : List Char} {n : Nat} (hNumeral : Unsigned text n) : Signed text n
  | minus {digits : List Char} {n : Nat} (hDigits : Denotes digits n) : Signed ('-' :: digits) (-n)

/-- The text is `inner` with nothing but white space around it. -/
def Padded (text inner : List Char) : Prop :=
  ∃ before after, (∀ b ∈ before, isBlank b = true) ∧ (∀ b ∈ after, isBlank b = true) ∧
    text = before ++ inner ++ after

variable {p : Char → Bool} {text front rest digits word : List Char} {bound size n : Nat} {k : Int}

/-- A text is divided in one way only. -/
theorem spans_iff : Spans p text front rest ↔ front = text.takeWhile p ∧ rest = text.dropWhile p := by
  constructor
  · rintro ⟨rfl, hHolds, hLongest⟩
    rw [List.takeWhile_append_of_pos hHolds, List.dropWhile_append_of_pos hHolds]
    cases rest with
    | nil => simp
    | cons c rest => simp [hLongest c rfl]
  · rintro ⟨rfl, rfl⟩
    refine ⟨List.takeWhile_append_dropWhile.symm, fun c => List.mem_takeWhile_imp, fun c hHead => ?_⟩
    have hFirst := List.head?_dropWhile_not p text
    rwa [Option.mem_def.mp hHead] at hFirst

theorem eq_of_valueBelow? {value : Nat} (hRead : valueBelow? bound value digits = some n) :
    Nat.ofDigitChars 10 digits value = n := by
  induction digits generalizing value with
  | nil => exact Option.some.inj hRead
  | cons c digits ih =>
      rw [valueBelow?] at hRead
      split at hRead
      case isTrue =>
        rw [Nat.ofDigitChars_cons, Nat.mul_comm]
        exact ih hRead
      case isFalse => cases hRead

theorem natural?_eq_some_iff : natural? bound text = some n ↔ Denotes text n ∧ n < bound := by
  constructor
  · intro hRead
    refine ⟨?_, lt_of_natural? hRead⟩
    rw [natural?] at hRead
    split at hRead
    case isFalse => cases hRead
    case isTrue hDigits =>
      simp only [Bool.and_eq_true, Bool.not_eq_true', List.isEmpty_eq_false_iff,
        List.all_eq_true] at hDigits
      exact ⟨hDigits.1, hDigits.2, eq_of_valueBelow? hRead⟩
  · rintro ⟨⟨hSome, hDigits, rfl⟩, hBound⟩
    rw [natural?, if_pos (by simpa using ⟨hSome, hDigits⟩), valueBelow?_eq _ _ hBound]

theorem denotes_toDigits (n : Nat) : Denotes (Nat.toDigits 10 n) n :=
  ⟨Nat.toDigits_ne_nil, fun _ => isAsciiDigit_of_mem_toDigits, Nat.ofDigitChars_ten_toDigits⟩

theorem Denotes.first {c : Char} (hDigits : Denotes (c :: rest) n) : isAsciiDigit c = true :=
  hDigits.digit c List.mem_cons_self

theorem unsigned_plus_iff : Unsigned ('+' :: digits) n ↔ Denotes digits n := by
  refine ⟨fun hNumeral => ?_, .plus⟩
  cases hNumeral with
  | plain hDigits => cases hDigits.first
  | plus hDigits => exact hDigits

theorem unsigned_iff_of_ne (hFirst : ∀ rest, text ≠ '+' :: rest) : Unsigned text n ↔ Denotes text n := by
  refine ⟨fun hNumeral => ?_, .plain⟩
  cases hNumeral with
  | plain hDigits => exact hDigits
  | plus hDigits => exact absurd rfl (hFirst _)

theorem unsigned?_eq_some_iff : unsigned? size text = some n ↔ Unsigned text n ∧ n < size := by
  rw [unsigned?, natural?_eq_some_iff, dropPlus.eq_def]
  split
  case h_1 => rw [unsigned_plus_iff]
  case h_2 hFirst => rw [unsigned_iff_of_ne hFirst]

theorem signed_minus_iff : Signed ('-' :: digits) k ↔ ∃ n : Nat, Denotes digits n ∧ k = -n := by
  constructor
  · intro hNumeral
    cases hNumeral with
    | unsigned hNumeral =>
        cases hNumeral with
        | plain hDigits => cases hDigits.first
    | minus hDigits => exact ⟨_, hDigits, rfl⟩
  · rintro ⟨n, hDigits, rfl⟩
    exact .minus hDigits

theorem signed_iff_of_ne (hFirst : ∀ rest, text ≠ '-' :: rest) :
    Signed text k ↔ ∃ n : Nat, Unsigned text n ∧ k = n := by
  constructor
  · intro hNumeral
    cases hNumeral with
    | unsigned hNumeral => exact ⟨_, hNumeral, rfl⟩
    | minus hDigits => exact absurd rfl (hFirst _)
  · rintro ⟨n, hNumeral, rfl⟩
    exact .unsigned hNumeral

theorem signed?_minus (size : Nat) (digits : List Char) :
    signed? size ('-' :: digits) = (natural? (size / 2 + 1) digits).map fun n : Nat => -(n : Int) := by
  rw [signed?]
  cases natural? (size / 2 + 1) digits <;> rfl

theorem signed?_of_ne (size : Nat) (hFirst : ∀ rest, text ≠ '-' :: rest) :
    signed? size text = (unsigned? (size / 2) text).map fun n : Nat => (n : Int) := by
  rw [signed?, unsigned?]
  · cases natural? (size / 2) (dropPlus text) <;> rfl
  · exact hFirst

/-- There is one more negative number than there are positive ones. -/
theorem signed?_eq_some_iff (hSize : 1 < size) : signed? size text = some k ↔
    Signed text k ∧ -((size / 2 : Nat) : Int) ≤ k ∧ k < (size / 2 : Nat) := by
  by_cases hFirst : ∃ digits, text = '-' :: digits
  case pos =>
    obtain ⟨digits, rfl⟩ := hFirst
    simp only [signed?_minus, Option.map_eq_some_iff, natural?_eq_some_iff, signed_minus_iff]
    constructor
    · rintro ⟨n, ⟨hDigits, hBound⟩, rfl⟩
      exact ⟨⟨n, hDigits, rfl⟩, by omega, by omega⟩
    · rintro ⟨⟨n, hDigits, rfl⟩, hLow, -⟩
      exact ⟨n, ⟨hDigits, by omega⟩, rfl⟩
  case neg =>
    have hOther : ∀ digits, text ≠ '-' :: digits := fun digits hText => hFirst ⟨digits, hText⟩
    simp only [signed?_of_ne size hOther, Option.map_eq_some_iff, unsigned?_eq_some_iff,
      signed_iff_of_ne hOther]
    constructor
    · rintro ⟨n, ⟨hNumeral, hBound⟩, rfl⟩
      exact ⟨⟨n, hNumeral, rfl⟩, by omega, by omega⟩
    · rintro ⟨⟨n, hNumeral, rfl⟩, -, hHigh⟩
      exact ⟨n, ⟨hNumeral, by omega⟩, rfl⟩

theorem isWord_cons {c : Char} (hFirst : isBlank c = false) (hRest : ∀ d ∈ rest, isBlank d = false) :
    IsWord (c :: rest) :=
  ⟨List.cons_ne_nil c rest, List.forall_mem_cons.mpr ⟨hFirst, hRest⟩⟩

theorem Denotes.not_blank (hDigits : Denotes digits n) : ∀ c ∈ digits, isBlank c = false :=
  fun c hMem => not_isBlank_of_isAsciiDigit (hDigits.digit c hMem)

theorem Unsigned.isWord (hNumeral : Unsigned text n) : IsWord text := by
  cases hNumeral with
  | plain hDigits => exact ⟨hDigits.ne_nil, hDigits.not_blank⟩
  | plus hDigits => exact isWord_cons (by decide) hDigits.not_blank

theorem Signed.isWord (hNumeral : Signed text k) : IsWord text := by
  cases hNumeral with
  | unsigned hNumeral => exact hNumeral.isWord
  | minus hDigits => exact isWord_cons (by decide) hDigits.not_blank

theorem padded_trim (text : List Char) : Padded text (trim text) := by
  have hStart := @List.takeWhile_append_dropWhile _ isBlank text
  have hEnd := @List.takeWhile_append_dropWhile _ isBlank (trimStart text).reverse
  refine ⟨text.takeWhile isBlank, ((trimStart text).reverse.takeWhile isBlank).reverse,
    fun b => List.mem_takeWhile_imp, fun b hMem => List.mem_takeWhile_imp (List.mem_reverse.mp hMem),
    ?_⟩
  rw [trim, trimEnd, List.append_assoc, ← List.reverse_append, hEnd, List.reverse_reverse, trimStart,
    hStart]

/-- What trimming leaves, if it holds no white space. -/
theorem IsWord.trim_eq_iff (hWord : IsWord word) : Text.trim text = word ↔ Padded text word := by
  constructor
  · rintro rfl
    exact padded_trim text
  · rintro ⟨before, after, hBefore, hAfter, rfl⟩
    exact hWord.trim hBefore hAfter

/-- A property of words holds of what trimming leaves if it holds of a word with nothing but white space
around it. -/
theorem of_trim_iff {property : List Char → Prop} (hWord : ∀ word, property word → IsWord word) :
    property (trim text) ↔ ∃ word, Padded text word ∧ property word := by
  constructor
  · exact fun hHolds => ⟨trim text, padded_trim text, hHolds⟩
  · rintro ⟨word, hPadded, hHolds⟩
    rwa [(hWord word hHolds).trim_eq_iff.mpr hPadded]

theorem unsigned?_trim_eq_some_iff : unsigned? size (trim text) = some n ↔
    ∃ numeral, Padded text numeral ∧ Unsigned numeral n ∧ n < size :=
  unsigned?_eq_some_iff.trans
    (of_trim_iff fun numeral (hRead : Unsigned numeral n ∧ _) => hRead.1.isWord)

theorem signed?_trim_eq_some_iff (hSize : 1 < size) : signed? size (trim text) = some k ↔
    ∃ numeral, Padded text numeral ∧ Signed numeral k ∧ -((size / 2 : Nat) : Int) ≤ k ∧
      k < (size / 2 : Nat) :=
  (signed?_eq_some_iff hSize).trans
    (of_trim_iff fun numeral (hRead : Signed numeral k ∧ _) => hRead.1.isWord)

/-- Where there is only one failure, it is met just when nothing is read. -/
theorem eq_error_iff_of_cases {ε α : Type} {reading : Except ε α} {failure other : ε}
    (hCases : (∃ value, reading = .ok value) ∨ reading = .error failure) :
    reading = .error other ↔ other = failure ∧ ∀ value, reading ≠ .ok value := by
  rcases hCases with ⟨value, rfl⟩ | rfl
  · exact iff_of_false (fun hError => by cases hError) fun ⟨_, hNone⟩ => hNone value rfl
  · rw [Except.error.injEq]
    constructor
    · exact fun hFailure => ⟨hFailure.symm, fun value hOk => by cases hOk⟩
    · exact fun ⟨hFailure, _⟩ => hFailure.symm

end ProcessCensus.Text
