import ProcessCensus.Proofs.Environment

/-!
Environments as maps that keep the order of insertion. Where a variable stands is settled when it is
set first, and which value it has when it is set last.
-/

namespace ProcessCensus.Environment

variable {key value : String}

theorem get?_of_notMem {environment : Environment} (hNew : key ∉ environment.keys) :
    environment.get? key = none := by
  rw [get?, List.find?_eq_none.mpr]
  · rfl
  · intro entry hMem hKey
    exact hNew (List.mem_map.mpr ⟨entry, hMem, beq_iff_eq.mp hKey⟩)

theorem get?_append (before after : List (String × String)) (key : String) :
    (⟨before ++ after⟩ : Environment).get? key =
      ((⟨before⟩ : Environment).get? key).or ((⟨after⟩ : Environment).get? key) := by
  rw [get?, List.find?_append, Option.map_or]
  rfl

theorem get?_cons (entry : String × String) (entries : List (String × String)) (key : String) :
    (⟨entry :: entries⟩ : Environment).get? key =
      if entry.1 = key then some entry.2 else (⟨entries⟩ : Environment).get? key := by
  rw [get?, get?, List.find?_cons]
  by_cases hKey : entry.1 = key
  · simp [hKey]
  · simp [hKey, beq_false_of_ne hKey]

/-- Setting a variable tells the value that it had. -/
theorem replace_fst (environment : Environment) (key value : String) :
    (environment.replace key value).1 = environment.get? key := by
  rcases environment.replace_cases key value with
    ⟨before, old, after, rfl, hBefore, hReplace⟩ | ⟨hNew, hReplace⟩
  · have hFront : (⟨before⟩ : Environment).get? key = none := get?_of_notMem hBefore
    rw [hReplace, get?_append, hFront, get?_cons, if_pos rfl]
    rfl
  · rw [hReplace, get?_of_notMem hNew]

theorem get?_insert (environment : Environment) (key value other : String) :
    (environment.insert key value).get? other =
      if other = key then some value else environment.get? other := by
  rw [insert]
  rcases environment.replace_cases key value with
    ⟨before, old, after, rfl, hBefore, hReplace⟩ | ⟨hNew, hReplace⟩
  · rw [hReplace, get?_append, get?_append, get?_cons, get?_cons]
    by_cases hKey : other = key
    · subst hKey
      have hFront : (⟨before⟩ : Environment).get? other = none := get?_of_notMem hBefore
      simp [hFront]
    · simp [hKey, Ne.symm hKey]
  · rw [hReplace, get?_append, get?_cons]
    by_cases hKey : other = key
    · subst hKey
      have hOld : (⟨environment.entries⟩ : Environment).get? other = none := get?_of_notMem hNew
      simp [hOld]
    · have hNone : (⟨[]⟩ : Environment).get? other = none := rfl
      simp [hKey, Ne.symm hKey, hNone]

/-- Setting a variable leaves all others alone, with their values and in their places. -/
theorem getElem?_insert {key other : String} (hOther : other ≠ key) (environment : Environment)
    (value : String) (place : Nat) (current : String) :
    (environment.insert key value).entries[place]? = some (other, current) ↔
      environment.entries[place]? = some (other, current) := by
  rw [insert]
  rcases environment.replace_cases key value with
    ⟨before, old, after, rfl, -, hReplace⟩ | ⟨-, hReplace⟩
  · rw [hReplace, List.getElem?_append, List.getElem?_append]
    split
    case isTrue => rfl
    case isFalse =>
      -- The one entry that is different has the key that was set.
      cases place - before.length with
      | zero => simp [Ne.symm hOther]
      | succ later => rfl
  · rw [hReplace, List.getElem?_append]
    split
    case isTrue => rfl
    case isFalse hBehind =>
      have hNone := List.getElem?_eq_none (Nat.not_lt.mp hBehind)
      cases place - environment.entries.length with
      | zero => simp [Ne.symm hOther, hNone]
      | succ later => simp [hNone]

/-- The last of the pairs with this key has this value. -/
def SetLast (pairs : List (String × String)) (key value : String) : Prop :=
  ∃ before after, pairs = before ++ (key, value) :: after ∧ key ∉ after.map (·.1)

theorem setLast_concat {pairs : List (String × String)} {pair : String × String} :
    SetLast (pairs ++ [pair]) key value ↔
      if key = pair.1 then pair.2 = value else SetLast pairs key value := by
  constructor
  · rintro ⟨before, after, hPairs, hAfter⟩
    rcases List.eq_nil_or_concat after with rfl | ⟨after, last, rfl⟩
    · obtain ⟨rfl, hPair⟩ := List.append_inj' hPairs rfl
      simp [List.singleton_inj.mp hPair]
    · rw [List.concat_eq_append, ← List.cons_append, ← List.append_assoc] at hPairs
      obtain ⟨rfl, hPair⟩ := List.append_inj' hPairs rfl
      obtain rfl := List.singleton_inj.mp hPair
      have hOther : key ≠ pair.1 := fun hKey => hAfter (by simp [hKey])
      rw [if_neg hOther]
      exact ⟨before, after, rfl, fun hMem => hAfter (by simp [hMem])⟩
  · intro hLast
    split at hLast
    case isTrue hKey =>
      subst hKey hLast
      exact ⟨pairs, [], rfl, List.not_mem_nil⟩
    case isFalse hOther =>
      obtain ⟨before, after, rfl, hAfter⟩ := hLast
      exact ⟨before, after ++ [pair], by simp, by simp [hAfter, hOther]⟩

theorem get?_ofList_eq_some_iff {pairs : List (String × String)} :
    (ofList pairs).get? key = some value ↔ SetLast pairs key value := by
  induction pairs using List.reverseRecOn with
  | nil => simp [ofList, get?, empty, SetLast]
  | append_singleton pairs pair ih =>
      rw [ofList_concat, get?_insert, setLast_concat, ← ih]
      split
      case isTrue => exact Option.some_inj
      case isFalse => rfl

theorem get?_eq_none_iff {environment : Environment} :
    environment.get? key = none ↔ key ∉ environment.keys := by
  refine ⟨?_, get?_of_notMem⟩
  intro hNone hMem
  obtain ⟨entry, hEntry, rfl⟩ := List.mem_map.mp hMem
  rw [get?, Option.map_eq_none_iff, List.find?_eq_none] at hNone
  exact hNone entry hEntry (beq_iff_eq.mpr rfl)

theorem mem_entries_iff {environment : Environment} (hKeys : environment.keys.Nodup) :
    (key, value) ∈ environment.entries ↔ environment.get? key = some value := by
  rw [get?, Option.map_eq_some_iff]
  constructor
  · intro hMem
    obtain ⟨entry, hFound⟩ := Option.isSome_iff_exists.mp
      (List.find?_isSome.mpr ⟨(key, value), hMem, beq_iff_eq.mpr rfl⟩ :
        (environment.entries.find? (·.1 == key)).isSome)
    have hKey : entry.1 = key := by simpa using List.find?_some hFound
    have hSame := List.inj_on_of_nodup_map hKeys (List.mem_of_find?_eq_some hFound) hMem hKey
    exact ⟨entry, hFound, by rw [hSame]⟩
  · rintro ⟨entry, hFound, rfl⟩
    have hKey : entry.1 = key := by simpa using List.find?_some hFound
    rw [← hKey]
    exact List.mem_of_find?_eq_some hFound

/-- An environment keeps its variables in the order in which they were set first, and each with the
value that was set last. A key is there once; to set it again tells the value before and touches no
other variable. -/
theorem ofList_keeps_order (pairs : List (String × String)) :
    (ofList pairs).keys = (pairs.map (·.1)).eraseDups ∧
    (ofList pairs).keys.Nodup ∧
    (∀ key value, (key, value) ∈ (ofList pairs).entries ↔ SetLast pairs key value) ∧
    (∀ key value, (ofList pairs).get? key = some value ↔ SetLast pairs key value) ∧
    (∀ key, (ofList pairs).get? key = none ↔ key ∉ pairs.map (·.1)) ∧
    (ofList pairs).size = (pairs.map (·.1)).toFinset.card ∧
    ∀ key value,
      (ofList pairs).replace key value =
        ((ofList pairs).get? key, ofList (pairs ++ [(key, value)])) ∧
      ∀ other, other ≠ key →
        ((ofList pairs).insert key value).get? other = (ofList pairs).get? other ∧
        ∀ (place : Nat) current,
          ((ofList pairs).insert key value).entries[place]? = some (other, current) ↔
            (ofList pairs).entries[place]? = some (other, current) := by
  have hKeys := nodup_keys_ofList pairs
  refine ⟨keys_ofList pairs, hKeys, ?_, fun key value => get?_ofList_eq_some_iff, ?_, ?_, ?_⟩
  · intro key value
    rw [mem_entries_iff hKeys]
    exact get?_ofList_eq_some_iff
  · intro key
    rw [get?_eq_none_iff, mem_keys_ofList]
  · rw [← length_eraseDups, ← keys_ofList, keys, List.length_map]
    rfl
  · intro key value
    refine ⟨Prod.ext (replace_fst _ key value) (ofList_concat pairs key value).symm, ?_⟩
    intro other hOther
    refine ⟨?_, fun place current => getElem?_insert hOther _ value place current⟩
    rw [get?_insert, if_neg hOther]

end ProcessCensus.Environment
