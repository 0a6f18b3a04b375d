import ProcessCensus.Linux.Listing
import ProcessCensus.Proofs.Text.Blank
import ProcessCensus.Proofs.Text.Split
import Mathlib.Data.List.Induction

/-!
Values that files with a key and a value on each line hold. The other lines may say anything.
-/

namespace ProcessCensus.Linux.Listing

open Text

/-- The key and the value in a line that has a colon. -/
def pair? (line : List Char) : Option (List Char × List Char) :=
  (splitOnce ':' line).map fun (key, value) => (key, trim value)

theorem pair?_dropReturn (line : List Char) : pair? (dropReturn line) = pair? line := by
  have hBlank : ∀ b ∈ ['\r'], isBlank b = true := List.forall_mem_singleton.mpr (by decide)
  rw [dropReturn]
  split
  case isTrue hReturn =>
    conv_rhs => rw [← List.dropLast_append_getLast? _ hReturn]
    rw [pair?, pair?, splitOnce_append_singleton (by decide)]
    cases splitOnce ':' line.dropLast with
    | none => rfl
    | some entry => simp [trim_append_of_blank entry.2 hBlank]
  case isFalse => rfl

theorem ofText_flatMap {rows : List (List Char)} (hRows : ∀ row ∈ rows, '\n' ∉ row) :
    ofText (rows.flatMap (· ++ ['\n'])) = rows.filterMap pair? := by
  rw [ofText, lines_flatMap hRows, List.filterMap_map]
  exact congrArg (List.filterMap · rows) (funext pair?_dropReturn)

/-- The last of the rows that have this key has this value. -/
def LastRow (rows : List (List Char)) (key : String) (value : List Char) : Prop :=
  ∃ before after, rows = before ++ (key.toList ++ ':' :: value) :: after ∧
    ∀ row ∈ after, ¬key.toList ++ [':'] <+: row

variable {rows : List (List Char)} {key : String} {value : List Char}

theorem pair?_eq_some_iff {row : List Char} (hKey : ':' ∉ key.toList) :
    pair? row = some (key.toList, value) ↔
      ∃ rest, row = key.toList ++ ':' :: rest ∧ trim rest = value := by
  rw [pair?, Option.map_eq_some_iff]
  constructor
  · rintro ⟨⟨first, rest⟩, hCut, hPair⟩
    obtain ⟨rfl, rfl⟩ := Prod.mk.inj hPair
    exact ⟨rest, (splitOnce_eq_some_iff.mp hCut).2, rfl⟩
  · rintro ⟨rest, rfl, rfl⟩
    exact ⟨_, splitOnce_append_cons hKey rest, rfl⟩

theorem lastRow_concat_iff {row : List Char} :
    LastRow (rows ++ [row]) key value ↔
      row = key.toList ++ ':' :: value ∨
        (¬key.toList ++ [':'] <+: row ∧ LastRow rows key value) := by
  constructor
  · rintro ⟨before, after, hRows, hAfter⟩
    rcases List.eq_nil_or_concat after with rfl | ⟨after, last, rfl⟩
    · exact .inl (List.append_inj_right' hRows rfl |> List.singleton_inj.mp)
    · rw [List.concat_eq_append, ← List.cons_append, ← List.append_assoc] at hRows
      obtain ⟨rfl, hLast⟩ := List.append_inj' hRows rfl
      obtain rfl := List.singleton_inj.mp hLast
      exact .inr ⟨hAfter row (by simp), before, after, rfl,
        fun other hMem => hAfter other (by simp [hMem])⟩
  · rintro (rfl | ⟨hRow, before, after, rfl, hAfter⟩)
    · exact ⟨rows, [], rfl, by simp⟩
    · refine ⟨before, after ++ [row], by simp, fun other hMem => ?_⟩
      rcases List.mem_append.mp hMem with hOld | hNew
      · exact hAfter other hOld
      · exact List.mem_singleton.mp hNew ▸ hRow

theorem get?_concat_of_key (hKey : ':' ∉ key.toList) (rows : List (List Char)) (rest : List Char) :
    get? ((rows ++ [key.toList ++ ':' :: rest]).filterMap pair?) key = some (trim rest) := by
  have hEntry := (@pair?_eq_some_iff key _ _ hKey).mpr ⟨rest, rfl, rfl⟩
  rw [get?, List.filterMap_append, List.filterMap_cons_some hEntry, List.reverse_append]
  simp

theorem get?_concat_of_other {row : List Char} (hRow : ¬key.toList ++ [':'] <+: row)
    (rows : List (List Char)) :
    get? ((rows ++ [row]).filterMap pair?) key = get? (rows.filterMap pair?) key := by
  rw [get?, get?, List.filterMap_append]
  cases hEntry : pair? row with
  | none => rw [List.filterMap_cons_none hEntry, List.filterMap_nil, List.append_nil]
  | some entry =>
      have hOther : (key.toList == entry.1) = false := by
        obtain ⟨⟨first, rest⟩, hCut, rfl⟩ := Option.map_eq_some_iff.mp hEntry
        obtain ⟨-, rfl⟩ := splitOnce_eq_some_iff.mp hCut
        exact beq_false_of_ne fun hEq => hRow ⟨rest, by simp [show key.toList = first from hEq]⟩
      rw [List.filterMap_cons_some hEntry, List.filterMap_nil, List.reverse_append,
        List.reverse_singleton, List.singleton_append, List.lookup_cons, hOther]

/-- What is looked up is what the last of the rows with this key says. -/
theorem get?_eq_some_iff (hKey : ':' ∉ key.toList) :
    get? (rows.filterMap pair?) key = some value ↔
      ∃ rest, LastRow rows key rest ∧ trim rest = value := by
  induction rows using List.reverseRecOn with
  | nil => simp [get?, LastRow]
  | append_singleton rows row ih =>
      simp only [lastRow_concat_iff]
      by_cases hRow : key.toList ++ [':'] <+: row
      case pos =>
        obtain ⟨rest, rfl⟩ := hRow
        rw [List.append_assoc, List.singleton_append, get?_concat_of_key hKey]
        simp
      case neg =>
        rw [get?_concat_of_other hRow, ih]
        constructor
        · rintro ⟨rest, hLast, hTrim⟩
          exact ⟨rest, .inr ⟨hRow, hLast⟩, hTrim⟩
        · rintro ⟨rest, rfl | ⟨-, hLast⟩, hTrim⟩
          · exact absurd ⟨rest, by simp⟩ hRow
          · exact ⟨rest, hLast, hTrim⟩

theorem get?_of_lastRow (hRows : ∀ row ∈ rows, '\n' ∉ row) (hKey : ':' ∉ key.toList)
    (hLast : LastRow rows key value) :
    (ofText (rows.flatMap (· ++ ['\n']))).get? key = some (trim value) := by
  rw [ofText_flatMap hRows]
  exact (get?_eq_some_iff hKey).mpr ⟨value, hLast, rfl⟩

/-- The last of the rows that have this key has this number for its first word. -/
def Counts (rows : List (List Char)) (key : String) (count : UInt64) : Prop :=
  ∃ before rest, LastRow rows key (before ++ numeral count.toNat ++ rest) ∧
    before.all isBlank = true ∧ rest.head?.all isBlank = true

theorem number_of_counts (hRows : ∀ row ∈ rows, '\n' ∉ row) (hKey : ':' ∉ key.toList)
    {count : UInt64} (hCounts : Counts rows key count) :
    (ofText (rows.flatMap (· ++ ['\n']))).number key = count := by
  obtain ⟨before, rest, hLast, hBefore, hRest⟩ := hCounts
  have hWord := (isWord_numeral count.toNat).head?_words (List.all_eq_true.mp hBefore) hRest
  rw [number, get?_of_lastRow hRows hKey hLast, Option.bind_some, words_trim, hWord,
    Option.bind_some, unsigned?_numeral count.toNat_lt_size]
  simp

/-- The last of the rows that have this key has this pid, and nothing else but white space. -/
def Names (rows : List (List Char)) (key : String) (pid : Int32) : Prop :=
  ∃ before after, LastRow rows key (before ++ numeral pid.toInt ++ after) ∧
    before.all isBlank = true ∧ after.all isBlank = true

theorem pid?_of_names (hRows : ∀ row ∈ rows, '\n' ∉ row) (hKey : ':' ∉ key.toList) {pid : Int32}
    (hNames : Names rows key pid) :
    (ofText (rows.flatMap (· ++ ['\n']))).pid? key = some pid := by
  obtain ⟨before, after, hLast, hBefore, hAfter⟩ := hNames
  have hRead : signed? Int32.size (numeral pid.toInt) = some pid.toInt :=
    signed?_numeral pid.le_toInt pid.toInt_lt
  rw [pid?, get?_of_lastRow hRows hKey hLast,
    (isWord_numeral pid.toInt).trim (List.all_eq_true.mp hBefore) (List.all_eq_true.mp hAfter)]
  simp [hRead]

end ProcessCensus.Linux.Listing
