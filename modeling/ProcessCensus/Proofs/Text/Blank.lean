import ProcessCensus.Text.Blank
import ProcessCensus.Proofs.Text.Numeral
import Mathlib.Data.List.TakeWhile

/-!
What white space separates. Main statements: words that are joined by blanks come apart, white space
around a text plays no role, and numerals hold none.
-/

namespace ProcessCensus.Text

theorem wordsFrom_eq_filter (text current : List Char) :
    wordsFrom current text = (text.splitOnPPrepend isBlank current).filter (!·.isEmpty) := by
  induction text generalizing current with
  | nil => cases current <;> simp [wordsFrom, List.splitOnPPrepend]
  | cons c text ih =>
      rw [wordsFrom, List.splitOnPPrepend_cons_eq_if]
      cases hBlank : isBlank c <;> cases current <;> simp [ih]

theorem words_eq_filter (text : List Char) :
    words text = (text.splitOnP isBlank).filter (!·.isEmpty) :=
  wordsFrom_eq_filter text []

/-- A blank separates words. -/
theorem words_append_cons (before after : List Char) {b : Char} (hBlank : isBlank b = true) :
    words (before ++ b :: after) = words before ++ words after := by
  simp only [words_eq_filter, List.splitOnP_append_cons before after hBlank, List.filter_append]

theorem words_nil : words [] = [] := rfl

theorem words_cons {b : Char} (hBlank : isBlank b = true) (after : List Char) :
    words (b :: after) = words after :=
  words_append_cons [] after hBlank

theorem words_append_of_blank (text : List Char) {blanks : List Char}
    (hBlanks : ∀ b ∈ blanks, isBlank b = true) : words (text ++ blanks) = words text := by
  induction blanks generalizing text with
  | nil => rw [List.append_nil]
  | cons b blanks ih =>
      have hRest := ih [] fun c hMem => hBlanks c (List.mem_cons_of_mem b hMem)
      rw [words_append_cons text blanks (hBlanks b List.mem_cons_self)]
      simpa [words_nil] using hRest

theorem words_append_of_blank_left {blanks : List Char} (hBlanks : ∀ b ∈ blanks, isBlank b = true)
    (text : List Char) : words (blanks ++ text) = words text := by
  induction blanks with
  | nil => rfl
  | cons b blanks ih =>
      rw [List.cons_append, words_cons (hBlanks b List.mem_cons_self)]
      exact ih fun c hMem => hBlanks c (List.mem_cons_of_mem b hMem)

/-- A word: something without blanks. -/
structure IsWord (text : List Char) : Prop where
  ne_nil : text ≠ []
  not_blank : ∀ c ∈ text, isBlank c = false

theorem IsWord.words {text : List Char} (hWord : IsWord text) : words text = [text] := by
  rw [words_eq_filter, List.splitOnP_eq_singleton hWord.not_blank]
  simp [hWord.ne_nil]

/-- Words joined by single blanks come apart. -/
theorem words_intercalate {pieces : List (List Char)} (hWords : ∀ piece ∈ pieces, IsWord piece) :
    words ([' '].intercalate pieces) = pieces := by
  induction pieces with
  | nil => rfl
  | cons piece pieces ih =>
      have hPiece := (hWords piece List.mem_cons_self).words
      cases pieces with
      | nil => simpa using hPiece
      | cons next pieces =>
          rw [List.intercalate_cons_cons, List.append_assoc, List.singleton_append,
            words_append_cons _ _ (by decide), hPiece,
            ih fun other hMem => hWords other (List.mem_cons_of_mem piece hMem)]
          rfl

theorem trimEnd_append_of_blank (text : List Char) {blanks : List Char}
    (hBlanks : ∀ b ∈ blanks, isBlank b = true) : trimEnd (text ++ blanks) = trimEnd text := by
  rw [trimEnd, List.reverse_append, List.dropWhile_append_of_pos (by simpa using hBlanks)]
  rfl

theorem trim_append_of_blank (text : List Char) {blanks : List Char}
    (hBlanks : ∀ b ∈ blanks, isBlank b = true) : trim (text ++ blanks) = trim text := by
  rw [trim, trim, trimStart, trimStart, List.dropWhile_append]
  split
  case isTrue hNone =>
    rw [List.isEmpty_iff.mp hNone, List.dropWhile_eq_nil_iff.mpr hBlanks]
  case isFalse hSome => exact trimEnd_append_of_blank _ hBlanks

theorem words_trimStart (text : List Char) : words (trimStart text) = words text := by
  conv_rhs => rw [← @List.takeWhile_append_dropWhile _ isBlank text]
  exact (words_append_of_blank_left (fun _ => List.mem_takeWhile_imp) _).symm

theorem words_trimEnd (text : List Char) : words (trimEnd text) = words text := by
  have hText : text = trimEnd text ++ (text.reverse.takeWhile isBlank).reverse := by
    rw [trimEnd, ← List.reverse_append, List.takeWhile_append_dropWhile, List.reverse_reverse]
  conv_rhs => rw [hText]
  refine (words_append_of_blank _ fun b hMem => ?_).symm
  exact List.mem_takeWhile_imp (List.mem_reverse.mp hMem)

theorem words_trim (text : List Char) : words (trim text) = words text := by
  rw [trim, words_trimEnd, words_trimStart]

theorem IsWord.trimStart_append {word : List Char} (hWord : IsWord word) (rest : List Char) :
    trimStart (word ++ rest) = word ++ rest := by
  obtain ⟨c, others, rfl⟩ := List.exists_cons_of_ne_nil hWord.ne_nil
  have hFirst := hWord.not_blank c List.mem_cons_self
  simp [trimStart, hFirst]

theorem IsWord.trimEnd {word : List Char} (hWord : IsWord word) : trimEnd word = word := by
  have hReverse : IsWord word.reverse :=
    ⟨by simpa using hWord.ne_nil, fun c hMem => hWord.not_blank c (List.mem_reverse.mp hMem)⟩
  have hStart := hReverse.trimStart_append []
  rw [List.append_nil, trimStart] at hStart
  rw [Text.trimEnd, hStart, List.reverse_reverse]

/-- White space around a word is trimmed. -/
theorem IsWord.trim {before word after : List Char} (hWord : IsWord word)
    (hBefore : ∀ b ∈ before, isBlank b = true) (hAfter : ∀ b ∈ after, isBlank b = true) :
    trim (before ++ word ++ after) = word := by
  rw [Text.trim, trimStart, List.append_assoc, List.dropWhile_append_of_pos hBefore, ← trimStart,
    hWord.trimStart_append, trimEnd_append_of_blank _ hAfter, hWord.trimEnd]

/-- The first word of a text that begins with one, perhaps after white space. -/
theorem IsWord.head?_words {before word rest : List Char} (hWord : IsWord word)
    (hBefore : ∀ b ∈ before, isBlank b = true) (hRest : rest.head?.all isBlank = true) :
    (Text.words (before ++ word ++ rest)).head? = some word := by
  rw [List.append_assoc, words_append_of_blank_left hBefore]
  cases rest with
  | nil => rw [List.append_nil, hWord.words]; rfl
  | cons b rest => rw [words_append_cons _ _ hRest, hWord.words]; rfl

theorem toNat_of_isAsciiDigit {c : Char} (hDigit : isAsciiDigit c = true) :
    48 ≤ c.toNat ∧ c.toNat ≤ 57 := by
  simp only [isAsciiDigit, Bool.and_eq_true, decide_eq_true_eq, Char.le_def,
    UInt32.le_iff_toNat_le] at hDigit
  exact hDigit

theorem not_isBlank_of_isAsciiDigit {c : Char} (hDigit : isAsciiDigit c = true) :
    isBlank c = false := by
  obtain ⟨hLow, hHigh⟩ := toNat_of_isAsciiDigit hDigit
  simp [isBlank, Ranges.holdChar, Ranges.hold, blankRanges]
  omega

/-- A numeral is a word. -/
theorem isWord_numeral (n : Int) : IsWord (numeral n) where
  ne_nil := by
    cases n with
    | ofNat n => rw [Int.ofNat_eq_natCast, numeral_natCast]; exact Nat.toDigits_ne_nil
    | negSucc n => rw [numeral_negSucc]; exact List.cons_ne_nil _ _
  not_blank c hMem := by
    rcases mem_numeral hMem with hDigit | rfl
    · exact not_isBlank_of_isAsciiDigit hDigit
    · decide

end ProcessCensus.Text
