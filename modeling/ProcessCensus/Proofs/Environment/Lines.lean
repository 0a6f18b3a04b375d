import ProcessCensus.Proofs.Environment.Insertion

/-!
Environments as lines with a key and a value each. A line that sets no variable leaves no trace, and
written down in lines an environment is read back as it was.
-/

namespace ProcessCensus.Environment

/-- A line that sets a variable: the key, which is not empty and has no equals sign in it, an equals
sign, and the value. -/
structure Sets (line key value : String) : Prop where
  key_ne : key ≠ ""
  mark_notMem : '=' ∉ key.toList
  line_eq : line = key ++ "=" ++ value

variable {line key value : String} {lines : List String}

theorem line_eq_iff :
    line = key ++ "=" ++ value ↔ line.toList = key.toList ++ '=' :: value.toList := by
  rw [← String.toList_inj, String.toList_append, String.toList_append, List.append_assoc]
  rfl

theorem sets_iff : Sets line key value ↔ entry? line = some (key, value) := by
  rw [entry?_eq_some_iff, ← line_eq_iff]
  exact ⟨fun ⟨hKey, hMark, hLine⟩ => ⟨⟨hKey, hMark⟩, hLine⟩,
    fun ⟨⟨hKey, hMark⟩, hLine⟩ => ⟨hKey, hMark, hLine⟩⟩

/-- A line without an equals sign, or with nothing in front of it, sets no variable. -/
theorem entry?_eq_none (hLine : '=' ∉ line.toList ∨ line.toList.head? = some '=') :
    entry? line = none := by
  rw [Option.eq_none_iff_forall_ne_some]
  rintro ⟨key, value⟩ hEntry
  obtain ⟨⟨hSome, hMark⟩, hText⟩ := entry?_eq_some_iff.mp hEntry
  rw [hText] at hLine
  rcases hLine with hNone | hFirst
  · exact hNone (by simp)
  · cases hKey : key.toList with
    | nil => exact hSome (String.toList_eq_nil_iff.mp hKey)
    | cons c rest =>
        rw [hKey] at hFirst hMark
        obtain rfl : c = '=' := Option.some.inj hFirst
        exact hMark List.mem_cons_self

/-- Where the variables that lines set come apart, the lines do. -/
theorem exists_line_of_split {before after : List (String × String)}
    (hSplit : lines.filterMap entry? = before ++ (key, value) :: after) :
    ∃ earlier line later, lines = earlier ++ line :: later ∧ Sets line key value ∧
      earlier.filterMap entry? = before ∧ later.filterMap entry? = after := by
  obtain ⟨front, back, rfl, hBefore, hBack⟩ := List.filterMap_eq_append_iff.mp hSplit
  obtain ⟨passed, line, later, rfl, hPassed, hLine, hAfter⟩ := List.filterMap_eq_cons_iff.mp hBack
  refine ⟨front ++ passed, line, later, by simp, sets_iff.mpr hLine, ?_, hAfter⟩
  rw [List.filterMap_append, hBefore, List.filterMap_eq_nil_iff.mpr hPassed, List.append_nil]

/-- Some of the lines sets this variable. -/
def SetIn (lines : List String) (key : String) : Prop :=
  ∃ line ∈ lines, ∃ value, Sets line key value

theorem mem_map_filterMap : key ∈ (lines.filterMap entry?).map (·.1) ↔ SetIn lines key := by
  rw [List.mem_map]
  constructor
  · rintro ⟨⟨_, value⟩, hPair, rfl⟩
    obtain ⟨line, hLine, hEntry⟩ := List.mem_filterMap.mp hPair
    exact ⟨line, hLine, value, sets_iff.mpr hEntry⟩
  · rintro ⟨line, hLine, value, hSets⟩
    exact ⟨(key, value), List.mem_filterMap.mpr ⟨line, hLine, sets_iff.mp hSets⟩, rfl⟩

/-- The last of the lines that set this variable sets it to this value. -/
theorem setLast_iff : SetLast (lines.filterMap entry?) key value ↔
    ∃ earlier line later, lines = earlier ++ line :: later ∧ Sets line key value ∧
      ¬SetIn later key := by
  constructor
  · rintro ⟨before, after, hSplit, hAfter⟩
    obtain ⟨earlier, line, later, hLines, hLine, -, rfl⟩ := exists_line_of_split hSplit
    exact ⟨earlier, line, later, hLines, hLine, mt mem_map_filterMap.mpr hAfter⟩
  · rintro ⟨earlier, line, later, rfl, hLine, hLater⟩
    refine ⟨earlier.filterMap entry?, later.filterMap entry?, ?_, mt mem_map_filterMap.mp hLater⟩
    rw [List.filterMap_append, List.filterMap_cons_some (sets_iff.mp hLine)]

theorem pairwise_keys_ofLines (lines : List String) : (ofLines lines).keys.Pairwise fun a b =>
    ∃ earlier line later, lines = earlier ++ line :: later ∧ (∃ value, Sets line a value) ∧
      ¬SetIn earlier b := by
  rw [ofLines, keys_ofList]
  refine (pairwise_eraseDups _).imp ?_
  rintro a b ⟨before, after, hSplit, hBefore⟩
  obtain ⟨front, _, hPairs, rfl, hBack⟩ := List.map_eq_append_iff.mp hSplit
  obtain ⟨⟨_, value⟩, back, rfl, rfl, -⟩ := List.map_eq_cons_iff.mp hBack
  obtain ⟨earlier, line, later, hLines, hLine, rfl, -⟩ := exists_line_of_split hPairs
  exact ⟨earlier, line, later, hLines, ⟨value, hLine⟩, mt mem_map_filterMap.mpr hBefore⟩

/-- Lines that set no variable can be left out. -/
theorem ofLines_append_append {junk : List String}
    (hJunk : ∀ line ∈ junk, '=' ∉ line.toList ∨ line.toList.head? = some '=')
    (before after : List String) : ofLines (before ++ junk ++ after) = ofLines (before ++ after) := by
  have hNone : junk.filterMap entry? = [] :=
    List.filterMap_eq_nil_iff.mpr fun line hMem => entry?_eq_none (hJunk line hMem)
  simp only [ofLines, List.filterMap_append, hNone, List.append_nil]

/-- The variables, one in a line, in their order. -/
def toLines (environment : Environment) : List String :=
  environment.entries.map fun pair => pair.1 ++ "=" ++ pair.2

/-- Setting the variables of an environment one after the other builds it again. -/
theorem ofList_entries {environment : Environment} (hKeys : environment.keys.Nodup) :
    ofList environment.entries = environment := by
  obtain ⟨entries⟩ := environment
  induction entries using List.reverseRecOn with
  | nil => rfl
  | append_singleton entries entry ih =>
      obtain ⟨key, value⟩ := entry
      rw [keys, List.map_append, List.nodup_append] at hKeys
      obtain ⟨hFront, -, hApart⟩ := hKeys
      have hNew : key ∉ (⟨entries⟩ : Environment).keys :=
        fun hMem => hApart key hMem key List.mem_cons_self rfl
      rw [ofList_concat, ih hFront, insert]
      rcases (⟨entries⟩ : Environment).replace_cases key value with
        ⟨before, old, after, hEntries, -, -⟩ | ⟨-, hReplace⟩
      · exact absurd (by simp [keys, Environment.mk.inj hEntries]) hNew
      · rw [hReplace]

theorem filterMap_toLines {environment : Environment}
    (hKeys : ∀ key ∈ environment.keys, key ≠ "" ∧ '=' ∉ key.toList) :
    environment.toLines.filterMap entry? = environment.entries := by
  rw [toLines, List.filterMap_map]
  have hEach : ∀ pair ∈ environment.entries, entry? (pair.1 ++ "=" ++ pair.2) = some pair := by
    rintro ⟨key, value⟩ hMem
    obtain ⟨hSome, hMark⟩ := hKeys key (List.mem_map_of_mem hMem)
    exact sets_iff.mp ⟨hSome, hMark, rfl⟩
  exact (List.filterMap_congr hEach).trans List.filterMap_some

/-- Lines set the variables that they name in the form of a key, an equals sign and a value, and no
others. A variable stands where the first of its lines puts it and has the value that the last of them
gives it; a line that sets none might as well not be there. An environment that is written down in
lines is what these lines set, if its keys can be written so. -/
theorem ofLines_keeps_settings (lines : List String) :
    (∀ key, key ∈ (ofLines lines).keys ↔ SetIn lines key) ∧
    (ofLines lines).keys.Nodup ∧
    ((ofLines lines).keys.Pairwise fun a b =>
      ∃ earlier line later, lines = earlier ++ line :: later ∧ (∃ value, Sets line a value) ∧
        ¬SetIn earlier b) ∧
    (∀ key value, (ofLines lines).get? key = some value ↔
      ∃ earlier line later, lines = earlier ++ line :: later ∧ Sets line key value ∧
        ¬SetIn later key) ∧
    (∀ before after junk,
      (∀ line ∈ junk, '=' ∉ line.toList ∨ line.toList.head? = some '=') →
      ofLines (before ++ junk ++ after) = ofLines (before ++ after)) ∧
    ∀ pairs, (∀ key ∈ (ofList pairs).keys, key ≠ "" ∧ '=' ∉ key.toList) →
      ofLines (ofList pairs).toLines = ofList pairs := by
  refine ⟨?_, nodup_keys_ofList _, pairwise_keys_ofLines lines, ?_, ?_, ?_⟩
  · intro key
    exact mem_keys_ofList.trans mem_map_filterMap
  · intro key value
    exact get?_ofList_eq_some_iff.trans setLast_iff
  · intro before after junk hJunk
    exact ofLines_append_append hJunk before after
  · intro pairs hKeys
    rw [ofLines, filterMap_toLines hKeys]
    exact ofList_entries (nodup_keys_ofList pairs)

/-- A line that sets nothing keeps no place, and an equals sign in a value stays there. -/
example : ofLines ["B", "A=1", "=2", "B=", "A=x=y"] = ⟨[("A", "x=y"), ("B", "")]⟩ := by decide

end ProcessCensus.Environment
