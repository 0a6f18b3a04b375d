import ProcessCensus.Environment
import ProcessCensus.Proofs.Occurrences
import ProcessCensus.Proofs.Text.Split

/-!
Environments as lists of entries. However often variables are set, no key occurs twice, and every
entry is one that was set. A line sets a variable if it is a key, an equals sign and a value.
-/

namespace ProcessCensus.Environment

/-- The variables that are set, in their order. -/
def keys (environment : Environment) : List String :=
  environment.entries.map (·.1)

@[simp] theorem keys_empty : empty.keys = [] := rfl

/-- All that setting a variable can come to: the first entry with its key gets the value and tells
the one it had, or there is no such entry and a new one is put at the end. -/
theorem replaceEntry_cases (key value : String) (entries : List (String × String)) :
    (∃ before old after, entries = before ++ (key, old) :: after ∧ key ∉ before.map (·.1) ∧
      replaceEntry key value entries = (some old, before ++ (key, value) :: after)) ∨
    (key ∉ entries.map (·.1) ∧
      replaceEntry key value entries = (none, entries ++ [(key, value)])) := by
  induction entries with
  | nil => exact .inr ⟨List.not_mem_nil, rfl⟩
  | cons entry entries ih =>
      obtain ⟨k, v⟩ := entry
      rw [replaceEntry]
      by_cases hKey : k = key
      · subst hKey
        exact .inl ⟨[], v, entries, rfl, List.not_mem_nil, if_pos rfl⟩
      rw [if_neg hKey]
      rcases ih with ⟨before, old, after, rfl, hBefore, hRest⟩ | ⟨hEntries, hRest⟩
      · refine .inl ⟨(k, v) :: before, old, after, rfl, ?_, by rw [hRest]; rfl⟩
        exact List.not_mem_cons_of_ne_of_not_mem (Ne.symm hKey) hBefore
      · refine .inr ⟨?_, by rw [hRest]; rfl⟩
        exact List.not_mem_cons_of_ne_of_not_mem (Ne.symm hKey) hEntries

theorem replace_cases (environment : Environment) (key value : String) :
    (∃ before old after, environment = ⟨before ++ (key, old) :: after⟩ ∧ key ∉ before.map (·.1) ∧
      environment.replace key value = (some old, ⟨before ++ (key, value) :: after⟩)) ∨
    (key ∉ environment.keys ∧
      environment.replace key value = (none, ⟨environment.entries ++ [(key, value)]⟩)) := by
  obtain ⟨entries⟩ := environment
  rcases replaceEntry_cases key value entries with
    ⟨before, old, after, rfl, hBefore, hEntries⟩ | ⟨hNew, hEntries⟩
  · exact .inl ⟨before, old, after, rfl, hBefore, by rw [replace, hEntries]⟩
  · exact .inr ⟨hNew, by rw [replace, hEntries]⟩

/-- A variable that is set again keeps its place. -/
theorem keys_insert (environment : Environment) (key value : String) :
    (environment.insert key value).keys =
      if key ∈ environment.keys then environment.keys else environment.keys ++ [key] := by
  rw [insert]
  rcases environment.replace_cases key value with
    ⟨before, old, after, rfl, -, hReplace⟩ | ⟨hNew, hReplace⟩
  · rw [hReplace, if_pos (by simp [keys])]
    simp [keys]
  · rw [hReplace, if_neg hNew]
    simp [keys]

theorem mem_insert {environment : Environment} {key value : String} {entry : String × String}
    (hMem : entry ∈ (environment.insert key value).entries) :
    entry = (key, value) ∨ entry ∈ environment.entries := by
  rw [insert] at hMem
  rcases environment.replace_cases key value with
    ⟨before, old, after, rfl, -, hReplace⟩ | ⟨-, hReplace⟩
  · rw [hReplace, List.mem_append, List.mem_cons] at hMem
    rw [List.mem_append, List.mem_cons]
    tauto
  · rw [hReplace, List.mem_append, List.mem_singleton] at hMem
    exact hMem.symm

theorem ofList_concat (pairs : List (String × String)) (key value : String) :
    ofList (pairs ++ [(key, value)]) = (ofList pairs).insert key value := by
  simp [ofList]

/-- Every key stays where it was set first. -/
theorem keys_ofList (pairs : List (String × String)) :
    (ofList pairs).keys = (pairs.map (·.1)).eraseDups := by
  induction pairs using List.reverseRecOn with
  | nil => rfl
  | append_singleton pairs pair ih =>
      obtain ⟨key, value⟩ := pair
      rw [ofList_concat, keys_insert, ih, List.map_append, List.map_singleton, eraseDups_concat]
      simp only [List.mem_eraseDups]

theorem nodup_keys_ofList (pairs : List (String × String)) : (ofList pairs).keys.Nodup := by
  rw [keys_ofList]
  exact nodup_eraseDups _

theorem mem_keys_ofList {pairs : List (String × String)} {key : String} :
    key ∈ (ofList pairs).keys ↔ key ∈ pairs.map (·.1) := by
  rw [keys_ofList, List.mem_eraseDups]

theorem mem_of_mem_ofList {pairs : List (String × String)} {entry : String × String}
    (hMem : entry ∈ (ofList pairs).entries) : entry ∈ pairs := by
  induction pairs using List.reverseRecOn with
  | nil => cases hMem
  | append_singleton pairs pair ih =>
      obtain ⟨key, value⟩ := pair
      rw [ofList_concat] at hMem
      rw [List.mem_append, List.mem_singleton]
      exact (mem_insert hMem).symm.imp_left ih

/-- The key ends at the first equals sign. -/
theorem entry?_eq_some_iff {line key value : String} :
    entry? line = some (key, value) ↔
      (key ≠ "" ∧ '=' ∉ key.toList) ∧ line.toList = key.toList ++ '=' :: value.toList := by
  unfold entry?
  constructor
  · intro hEntry
    split at hEntry
    case h_1 first second hSplit =>
      split at hEntry
      case isTrue => cases hEntry
      case isFalse hSome =>
        cases hEntry
        obtain ⟨hFree, hLine⟩ := Text.splitOnce_eq_some_iff.mp hSplit
        simp only [String.toList_ofList]
        exact ⟨⟨by simpa using hSome, hFree⟩, hLine⟩
    case h_2 => cases hEntry
  · rintro ⟨⟨hSome, hFree⟩, hLine⟩
    have hKey : key.toList.isEmpty = false := by simpa using hSome
    rw [hLine, Text.splitOnce_append_cons hFree]
    simp [hKey]

theorem exists_line_of_mem {lines : List String} {key value : String}
    (hMem : (key, value) ∈ (ofLines lines).entries) :
    ∃ line ∈ lines, entry? line = some (key, value) :=
  List.mem_filterMap.mp (mem_of_mem_ofList hMem)

theorem named_of_mem_ofLines {lines : List String} {key value : String}
    (hMem : (key, value) ∈ (ofLines lines).entries) : key ≠ "" ∧ '=' ∉ key.toList := by
  obtain ⟨line, -, hSets⟩ := exists_line_of_mem hMem
  exact (entry?_eq_some_iff.mp hSets).1

/-- What lines set holds no character that they do not hold. -/
theorem notMem_of_mem_ofLines {lines : List String} {c : Char}
    (hFree : ∀ line ∈ lines, c ∉ line.toList) {key value : String}
    (hMem : (key, value) ∈ (ofLines lines).entries) : c ∉ key.toList ∧ c ∉ value.toList := by
  obtain ⟨line, hLine, hSets⟩ := exists_line_of_mem hMem
  have hNot := hFree line hLine
  rw [(entry?_eq_some_iff.mp hSets).2, List.mem_append, List.mem_cons] at hNot
  push Not at hNot
  exact ⟨hNot.1, hNot.2.2⟩

end ProcessCensus.Environment
