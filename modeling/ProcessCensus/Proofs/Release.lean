import ProcessCensus.Proofs.Text.Grammar
import ProcessCensus.Release

/-!
The texts that are read as releases. A text is divided by the longest runs at its start, whatever script
their digits are of; it is a release if these digits are ASCII digits and their numbers fit, and a
failure that carries the text otherwise. So the text of a release is read back, and so is every text
that goes on with something else than a digit.
-/

namespace ProcessCensus.Release

open Text

/-- The digits of the minor number in what follows those of the major one: the longest run of digits
behind a point, if there is a digit behind the point. -/
inductive MinorIn : List Char → Option (List Char) → Prop
  | digits {rest digits tail : List Char} (hSpans : Spans isDecimalDigit rest digits tail)
      (hSome : digits ≠ []) : MinorIn ('.' :: rest) (some digits)
  | none {text : List Char}
      (hNone : ∀ c rest, text = '.' :: c :: rest → isDecimalDigit c = false) : MinorIn text none

/-- The digits of the two numbers at the start of a text, behind its white space. -/
def Divides (text major : List Char) (minor : Option (List Char)) : Prop :=
  ∃ blanks body tail, Spans isBlank text blanks body ∧ Spans isDecimalDigit body major tail ∧
    MinorIn tail minor

/-- The digits denote the numbers of the release. Without digits the minor number is 0. -/
structure Numbers (major : List Char) (minor : Option (List Char)) (release : Release) : Prop where
  major : Denotes major release.major.toNat
  minor : minor.elim (release.minor = 0) (Denotes · release.minor.toNat)

/-- The text begins with the release. -/
def Begins (text : List Char) (release : Release) : Prop :=
  ∃ major minor, Divides text major minor ∧ Numbers major minor release

variable {text digits major : List Char} {minor : Option (List Char)} {release : Release}

theorem isDecimalDigit_of_isAsciiDigit {c : Char} (hDigit : isAsciiDigit c = true) :
    isDecimalDigit c = true := by
  obtain ⟨hLow, hHigh⟩ := toNat_of_isAsciiDigit hDigit
  simp [isDecimalDigit, Ranges.holdChar, Ranges.hold, digitRanges, hLow, hHigh]

/-- The digits behind a point, if there are any. -/
def minor? (text : List Char) : Option (List Char) :=
  if (minorDigits text).isEmpty then none else some (minorDigits text)

theorem minorIn_point_iff {rest : List Char} : MinorIn ('.' :: rest) minor ↔
    minor = if (rest.takeWhile isDecimalDigit).isEmpty then none
      else some (rest.takeWhile isDecimalDigit) := by
  have hEmpty : (rest.takeWhile isDecimalDigit).isEmpty ↔
      ∀ c tail, '.' :: rest = '.' :: c :: tail → isDecimalDigit c = false := by
    cases rest with
    | nil => simp
    | cons c rest => cases hDigit : isDecimalDigit c <;> simp [hDigit]
  constructor
  · intro hMinor
    cases hMinor with
    | digits hSpans hSome =>
        obtain ⟨rfl, -⟩ := spans_iff.mp hSpans
        rw [if_neg (by simpa using hSome)]
    | none hNone => rw [if_pos (hEmpty.mpr hNone)]
  · rintro rfl
    split
    case isTrue hNone => exact .none (hEmpty.mp hNone)
    case isFalse hSome => exact .digits (spans_iff.mpr ⟨rfl, rfl⟩) (by simpa using hSome)

theorem minorIn_iff : MinorIn text minor ↔ minor = minor? text := by
  by_cases hPoint : ∃ rest, text = '.' :: rest
  case pos =>
    obtain ⟨rest, rfl⟩ := hPoint
    exact minorIn_point_iff
  case neg =>
    have hOther : ∀ rest, text ≠ '.' :: rest := fun rest hText => hPoint ⟨rest, hText⟩
    have hNone : minor? text = none := by simp [minor?, minorDigits.eq_2 text hOther]
    rw [hNone]
    constructor
    · intro hMinor
      cases hMinor with
      | digits => exact absurd rfl (hOther _)
      | none => rfl
    · rintro rfl
      exact .none fun c rest hText => absurd hText (hOther _)

/-- Every text is divided, and in one way only. -/
theorem divides_iff : Divides text major minor ↔
    major = (trimStart text).takeWhile isDecimalDigit ∧
      minor = minor? ((trimStart text).dropWhile isDecimalDigit) := by
  constructor
  · rintro ⟨blanks, body, tail, hBlanks, hMajor, hMinor⟩
    obtain ⟨-, rfl⟩ := spans_iff.mp hBlanks
    obtain ⟨rfl, rfl⟩ := spans_iff.mp hMajor
    exact ⟨rfl, minorIn_iff.mp hMinor⟩
  · rintro ⟨rfl, rfl⟩
    exact ⟨_, _, _, spans_iff.mpr ⟨rfl, rfl⟩, spans_iff.mpr ⟨rfl, rfl⟩, minorIn_iff.mpr rfl⟩

/-- Among digits of any script there is no sign, and a number is one or more ASCII digits. -/
theorem number?_eq_some_iff {n : UInt32} (hDigits : ∀ c ∈ digits, isDecimalDigit c = true) :
    number? digits = some n ↔ Denotes digits n.toNat := by
  have hSign : ∀ rest, digits ≠ '+' :: rest := by
    rintro rest rfl
    cases hDigits '+' List.mem_cons_self
  simp only [number?, Option.map_eq_some_iff, unsigned?_eq_some_iff, unsigned_iff_of_ne hSign]
  constructor
  · rintro ⟨value, ⟨hDenotes, hSize⟩, rfl⟩
    rwa [UInt32.toNat_ofNat_of_lt' hSize]
  · exact fun hDenotes => ⟨n.toNat, ⟨hDenotes, n.toNat_lt⟩, UInt32.ofNat_toNat⟩

theorem minorDigits_subset (text : List Char) : ∀ c ∈ minorDigits text, isDecimalDigit c = true := by
  intro c hMem
  rw [minorDigits.eq_def] at hMem
  split at hMem
  · exact List.mem_takeWhile_imp hMem
  · cases hMem

/-- The number behind a point, or 0. -/
def minorNumber? (digits : List Char) : Option UInt32 :=
  if digits.isEmpty then some 0 else number? digits

theorem numbers_iff (hMajor : ∀ c ∈ major, isDecimalDigit c = true) (text : List Char) :
    Numbers major (minor? text) release ↔
      number? major = some release.major ∧ minorNumber? (minorDigits text) = some release.minor := by
  have hMinor : (minor? text).elim (release.minor = 0) (Denotes · release.minor.toNat) ↔
      minorNumber? (minorDigits text) = some release.minor := by
    rw [minor?, minorNumber?]
    split
    case isTrue => rw [Option.some.injEq]; exact eq_comm
    case isFalse => exact (number?_eq_some_iff (minorDigits_subset text)).symm
  rw [number?_eq_some_iff hMajor, ← hMinor]
  exact ⟨fun ⟨hFirst, hSecond⟩ => ⟨hFirst, hSecond⟩, fun ⟨hFirst, hSecond⟩ => ⟨hFirst, hSecond⟩⟩

theorem begins_iff : Begins text release ↔
    number? ((trimStart text).takeWhile isDecimalDigit) = some release.major ∧
      minorNumber? (minorDigits ((trimStart text).dropWhile isDecimalDigit)) = some release.minor := by
  rw [← numbers_iff fun c => List.mem_takeWhile_imp]
  constructor
  · rintro ⟨major, minor, hDivides, hNumbers⟩
    obtain ⟨rfl, rfl⟩ := divides_iff.mp hDivides
    exact hNumbers
  · exact fun hNumbers => ⟨_, _, divides_iff.mpr ⟨rfl, rfl⟩, hNumbers⟩

theorem parse_eq (value : String) : parse value =
    match number? ((trimStart value.toList).takeWhile isDecimalDigit),
      minorNumber? (minorDigits ((trimStart value.toList).dropWhile isDecimalDigit)) with
    | some major, some minor => .ok ⟨major, minor⟩
    | _, _ => .error (.release value) := rfl

theorem parse_eq_ok_iff {value : String} :
    parse value = .ok release ↔ Begins value.toList release := by
  rw [begins_iff, parse_eq]
  split
  case h_1 major minor hMajor hMinor =>
    obtain ⟨_, _⟩ := release
    simp [hMajor, hMinor]
  case h_2 hNone =>
    refine iff_of_false (fun hOk => by cases hOk) fun ⟨hMajor, hMinor⟩ => ?_
    exact hNone _ _ hMajor hMinor

theorem parse_cases (value : String) :
    (∃ release, parse value = .ok release) ∨ parse value = .error (.release value) := by
  rw [parse_eq]
  split
  · exact .inl ⟨_, rfl⟩
  · exact .inr rfl

/-- The digits of another script count as digits, but have no value. -/
example : parse "1٣.5" = .error (.release "1٣.5") := by rfl

theorem toList_text (release : Release) : release.text.toList =
    Nat.toDigits 10 release.major.toNat ++ '.' :: Nat.toDigits 10 release.minor.toNat := by
  have hNumber : ∀ n : UInt32, (toString n).toList = Nat.toDigits 10 n.toNat :=
    fun n => numeral_natCast n.toNat
  have hPoint : (toString ".").toList = ['.'] := rfl
  simp [Release.text, hNumber, hPoint]

theorem isDecimalDigit_of_mem_toDigits {n : Nat} {c : Char} (hMem : c ∈ Nat.toDigits 10 n) :
    isDecimalDigit c = true :=
  isDecimalDigit_of_isAsciiDigit (isAsciiDigit_of_mem_toDigits hMem)

theorem spans_toDigits (n : Nat) {rest : List Char}
    (hRest : ∀ c ∈ rest.head?, isDecimalDigit c = false) :
    Spans isDecimalDigit (Nat.toDigits 10 n ++ rest) (Nat.toDigits 10 n) rest :=
  ⟨rfl, fun _ => isDecimalDigit_of_mem_toDigits, hRest⟩

/-- The text of a release begins with it, whatever follows that is no digit. -/
theorem begins_text_append (release : Release) {rest : List Char}
    (hRest : ∀ c ∈ rest.head?, isDecimalDigit c = false) :
    Begins (release.text.toList ++ rest) release := by
  obtain ⟨first, others, hFirst, hDigit⟩ := exists_toDigits_eq_cons release.major.toNat
  have hMinor : MinorIn ('.' :: (Nat.toDigits 10 release.minor.toNat ++ rest))
      (some (Nat.toDigits 10 release.minor.toNat)) :=
    .digits (spans_toDigits _ hRest) Nat.toDigits_ne_nil
  refine ⟨_, _, ⟨[], _, _, ⟨(List.nil_append _).symm, List.forall_mem_nil _, ?_⟩,
    ?_, hMinor⟩, denotes_toDigits _, denotes_toDigits _⟩
  · intro c hHead
    rw [toList_text, hFirst] at hHead
    exact Option.some.inj hHead ▸ not_isBlank_of_isAsciiDigit hDigit
  · rw [toList_text, List.append_assoc, List.cons_append]
    exact spans_toDigits _ fun c hPoint => Option.some.inj hPoint ▸ by decide

/-- The major numbers are compared first. -/
theorem atLeast_iff {release floor : Release} : release.atLeast floor = true ↔
    floor.major < release.major ∨ release.major = floor.major ∧ floor.minor ≤ release.minor := by
  rw [atLeast, order, bne_iff_ne, ne_eq, Ordering.then_eq_lt, Std.compare_eq_lt,
    Std.compare_eq_lt, Std.compare_eq_iff_eq]
  simp only [UInt32.lt_iff_toNat_lt, UInt32.le_iff_toNat_le, ← UInt32.toNat_inj]
  omega

/-- A text is read as a release if it begins with one: if the digits at its start are ASCII digits and
denote numbers that fit. Otherwise the failure carries the text. What begins with the text of a release
is read as that release, unless the digits go on. -/
theorem parse_accepts :
    (∀ text, ∃! division : List Char × Option (List Char), Divides text division.1 division.2) ∧
    (∀ value release, parse value = .ok release ↔ Begins value.toList release) ∧
    (∀ value failure, parse value = .error failure ↔
      failure = .release value ∧ ∀ release, ¬Begins value.toList release) ∧
    ∀ release suffix, (∀ c ∈ suffix.toList.head?, isDecimalDigit c = false) →
      parse (release.text ++ suffix) = .ok release := by
  refine ⟨fun text => ?_, fun value release => ?_, fun value failure => ?_, ?_⟩
  · refine ⟨(_, _), divides_iff.mpr ⟨rfl, rfl⟩, fun division hDivides => ?_⟩
    obtain ⟨hMajor, hMinor⟩ := divides_iff.mp hDivides
    exact Prod.ext hMajor hMinor
  · exact parse_eq_ok_iff
  · simp only [eq_error_iff_of_cases (parse_cases value), ne_eq, parse_eq_ok_iff]
  · intro release suffix hSuffix
    rw [parse_eq_ok_iff, String.toList_append]
    exact begins_text_append release hSuffix

theorem parse_accepts_beta : (∀ c ∈ "β7".toList.head?, isDecimalDigit c = false) ∧
    parse (Release.text ⟨14, 2⟩ ++ "β7") = .ok ⟨14, 2⟩ := by
  have hLetter : ∀ c ∈ "β7".toList.head?, isDecimalDigit c = false := by
    intro c hHead
    obtain rfl : 'β' = c := Option.some.inj hHead
    decide
  obtain ⟨-, -, -, hReads⟩ := parse_accepts
  exact ⟨hLetter, hReads ⟨14, 2⟩ "β7" hLetter⟩

end ProcessCensus.Release
