import ProcessCensus.Proofs.Invocation.Encoding

/-!
Reading a blob place by place. A cursor takes one string after the other and stands one place past
the end after a last string without a zero byte; every part of the blob that it takes is checked to
lie in the blob. It never reaches outside, always comes to an end, and reads what `ofBlob` reads.
-/

namespace ProcessCensus.Invocation

/-- Bytes are a last string, or a string with a zero byte and more bytes behind it. -/
@[elab_as_elim]
theorem terminatedInduction {motive : Bytes → Prop} (nil : motive [])
    (last : ∀ string, 0 ∉ string → string ≠ [] → motive string)
    (cons : ∀ string rest, 0 ∉ string → motive rest → motive (string ++ 0 :: rest))
    (bytes : Bytes) : motive bytes := by
  induction hLength : bytes.length using Nat.strongRecOn generalizing bytes with
  | ind length ih =>
      by_cases hZero : 0 ∈ bytes
      · obtain ⟨string, rest, rfl, hFree⟩ := List.eq_append_cons_of_mem hZero
        apply cons string rest hFree
        apply ih rest.length _ rest rfl
        rw [← hLength, List.length_append, List.length_cons]
        omega
      · by_cases hEmpty : bytes = []
        · exact hEmpty ▸ nil
        · exact last bytes hZero hEmpty

theorem terminated_append_cons {string : Bytes} (hString : 0 ∉ string) (rest : Bytes) :
    terminated (string ++ 0 :: rest) = string :: terminated rest := by
  simpa [terminate] using @terminated_append [string] (by simpa using hString) rest

theorem zero_notMem_of_mem_terminated {bytes string : Bytes} (hMem : string ∈ terminated bytes) :
    0 ∉ string := by
  induction bytes using terminatedInduction with
  | nil => simp [terminated_nil] at hMem
  | last last hLast hSome =>
      rw [terminated_of_notMem hLast hSome, List.mem_singleton] at hMem
      exact hMem ▸ hLast
  | cons first rest hFirst ih =>
      rw [terminated_append_cons hFirst, List.mem_cons] at hMem
      rcases hMem with hFound | hRest
      · exact hFound ▸ hFirst
      · exact ih hRest

theorem takeWhile_append_zero {string : Bytes} (hString : 0 ∉ string) (rest : Bytes) :
    (string ++ 0 :: rest).takeWhile (· != 0) = string ∧
      ((string ++ 0 :: rest).dropWhile (· != 0)).drop 1 = rest := by
  have hThrough : ∀ b ∈ string, (b != 0) = true := fun b hMem =>
    bne_iff_ne.mpr fun hZero => hString (hZero ▸ hMem)
  rw [List.takeWhile_append_of_pos hThrough, List.dropWhile_append_of_pos hThrough]
  simp

theorem takeWhile_of_zero_notMem {string : Bytes} (hString : 0 ∉ string) :
    string.takeWhile (· != 0) = string ∧ string.dropWhile (· != 0) = [] := by
  have hThrough : ∀ b ∈ string, (b != 0) = true := fun b hMem =>
    bne_iff_ne.mpr fun hZero => hString (hZero ▸ hMem)
  exact ⟨List.takeWhile_eq_self_iff.mpr hThrough, List.dropWhile_eq_nil_iff.mpr hThrough⟩

/-- The first string ends where the first zero byte or the end is. -/
theorem terminated_of_ne_nil {bytes : Bytes} (hSome : bytes ≠ []) :
    terminated bytes =
      bytes.takeWhile (· != 0) :: terminated ((bytes.dropWhile (· != 0)).drop 1) := by
  induction bytes using terminatedInduction with
  | nil => exact absurd rfl hSome
  | last string hString hSome =>
      obtain ⟨hFront, hBehind⟩ := takeWhile_of_zero_notMem hString
      rw [hFront, hBehind, terminated_of_notMem hString hSome]
      rfl
  | cons string rest hString ih =>
      obtain ⟨hFront, hBehind⟩ := takeWhile_append_zero hString rest
      rw [hFront, hBehind, terminated_append_cons hString]

/-- Some of the places from `first` up to `last` are outside the bytes. -/
structure Outside where
  first : Nat
  last : Nat

/-- The bytes at the places from `first` up to `last`. -/
def slice (bytes : Bytes) (first last : Nat) : Except Outside Bytes :=
  if first ≤ last ∧ last ≤ bytes.length then .ok ((bytes.take last).drop first)
  else .error ⟨first, last⟩

theorem slice_rest {bytes : Bytes} {first : Nat} (hFirst : first ≤ bytes.length) :
    slice bytes first bytes.length = .ok (bytes.drop first) := by
  simp [slice, hFirst]

theorem slice_front {bytes : Bytes} {last : Nat} (hLast : last ≤ bytes.length) :
    slice bytes 0 last = .ok (bytes.take last) := by
  simp [slice, hLast]

namespace Cursor

/-- The string at a place, and the place behind its zero byte; nothing from the end of the blob on. -/
def next (blob : Bytes) (place : Nat) : Except Outside (Option (Bytes × Nat)) :=
  if blob.length ≤ place then .ok none
  else do
    let rest ← slice blob place blob.length
    let length := rest.findIdx (· == 0)
    let string ← slice rest 0 length
    return some (string, place + length + 1)

/-- What can be found at a place. -/
inductive Finds (blob : Bytes) (place : Nat) : Option (Bytes × Nat) → Prop where
  | nothing (hEnd : blob.drop place = []) : Finds blob place none
  | string {string : Bytes} {after : Nat} (hPlace : place < blob.length) (hAfter : place < after)
      (hStrings : terminated (blob.drop place) = string :: terminated (blob.drop after))
      (hRest : blob.drop after = ((blob.drop place).dropWhile (· != 0)).drop 1) :
      Finds blob place (some (string, after))

theorem next_finds (blob : Bytes) (place : Nat) :
    ∃ found, next blob place = .ok found ∧ Finds blob place found := by
  by_cases hEnd : blob.length ≤ place
  case pos => exact ⟨none, by simp [next, hEnd], .nothing (List.drop_eq_nil_of_le hEnd)⟩
  case neg =>
    obtain ⟨rest, hDrop⟩ : ∃ rest, blob.drop place = rest := ⟨_, rfl⟩
    have hZero : (fun b : UInt8 => !(b != 0)) = (· == 0) := by
      funext b
      simp [bne]
    have hRest : slice blob place blob.length = .ok rest := by
      rw [slice_rest (by omega), hDrop]
    have hFront : slice rest 0 (rest.findIdx (· == 0)) = .ok (rest.takeWhile (· != 0)) := by
      rw [slice_front List.findIdx_le_length, List.takeWhile_eq_take_findIdx_not, hZero]
    have hBehind : blob.drop (place + rest.findIdx (· == 0) + 1) =
        (rest.dropWhile (· != 0)).drop 1 := by
      rw [List.dropWhile_eq_drop_findIdx_not, hZero, List.drop_drop, Nat.add_assoc,
        ← List.drop_drop, hDrop]
    refine ⟨some (rest.takeWhile (· != 0), place + rest.findIdx (· == 0) + 1), ?_, ?_⟩
    · rw [next, if_neg hEnd, hRest]
      simp only [bind, Except.bind, hFront]
      rfl
    · apply Finds.string
      · omega
      · omega
      · rw [hBehind, hDrop]
        apply terminated_of_ne_nil
        simpa [← hDrop] using hEnd
      · rw [hBehind, hDrop]

theorem lt_of_next {blob string : Bytes} {place after : Nat}
    (hNext : next blob place = .ok (some (string, after))) : place < blob.length ∧ place < after := by
  obtain ⟨found, hFound, hFinds⟩ := next_finds blob place
  obtain rfl : found = _ := Except.ok.inj (hFound.symm.trans hNext)
  cases hFinds with
  | string hPlace hAfter => exact ⟨hPlace, hAfter⟩

/-- The first place, from the given one on, that has no zero byte. -/
def skipZeros (blob : Bytes) (place : Nat) : Nat :=
  if blob[place]? = some 0 then skipZeros blob (place + 1) else place
termination_by blob.length - place
decreasing_by
  have hPlace : place < blob.length := by grind
  omega

theorem drop_skipZeros (blob : Bytes) (place : Nat) :
    blob.drop (skipZeros blob place) = (blob.drop place).dropWhile (· == 0) := by
  induction place using skipZeros.induct blob with
  | case1 place hZero ih =>
      obtain ⟨hPlace, hByte⟩ := List.getElem?_eq_some_iff.mp hZero
      rw [skipZeros, if_pos hZero, ih, List.drop_eq_getElem_cons hPlace, hByte]
      rfl
  | case2 place hOther =>
      rw [skipZeros, if_neg hOther]
      cases hRest : blob.drop place with
      | nil => rfl
      | cons b rest =>
          have hByte : blob[place]? = some b := by
            rw [← List.head?_drop, hRest]
            rfl
          have hNot : b ≠ 0 := fun hZero => hOther (hByte.trans (congrArg some hZero))
          rw [List.dropWhile_cons_of_neg (by simpa using hNot)]

/-- At most `count` strings, and the place behind them. -/
def strings (blob : Bytes) : Nat → Nat → Except Outside (List Bytes × Nat)
  | 0, place => .ok ([], place)
  | count + 1, place => do
    match ← next blob place with
    | none => return ([], place)
    | some (string, after) =>
      let (rest, last) ← strings blob count after
      return (string :: rest, last)

theorem strings_eq (blob : Bytes) (count place : Nat) :
    ∃ last, strings blob count place = .ok ((terminated (blob.drop place)).take count, last) ∧
      terminated (blob.drop last) = (terminated (blob.drop place)).drop count := by
  induction count generalizing place with
  | zero => exact ⟨place, rfl, rfl⟩
  | succ count ih =>
      obtain ⟨found, hNext, hFinds⟩ := next_finds blob place
      rw [strings, hNext]
      cases hFinds with
      | nothing hEnd =>
          refine ⟨place, ?_, ?_⟩
          · rw [hEnd, terminated_nil]
            rfl
          · rw [hEnd, terminated_nil]
            rfl
      | @string string after hPlace hAfter hStrings hRest =>
          obtain ⟨last, hLast, hBehind⟩ := ih after
          refine ⟨last, ?_, ?_⟩
          · rw [hStrings]
            simp only [bind, Except.bind, hLast]
            rfl
          · rw [hStrings, hBehind]
            rfl

/-- The strings up to an empty one. -/
def stringsUntilEmpty (blob : Bytes) (place : Nat) : Except Outside (List Bytes) :=
  match _ : next blob place with
  | .error outside => .error outside
  | .ok none => .ok []
  | .ok (some (string, after)) =>
    if string.isEmpty then .ok [] else (string :: ·) <$> stringsUntilEmpty blob after
termination_by blob.length - place
decreasing_by
  have hBounds := lt_of_next ‹next blob place = _›
  omega

theorem stringsUntilEmpty_of_nothing {blob : Bytes} {place : Nat}
    (hNext : next blob place = .ok none) : stringsUntilEmpty blob place = .ok [] := by
  rw [stringsUntilEmpty]
  split <;> simp_all

theorem stringsUntilEmpty_of_string {blob string : Bytes} {place after : Nat}
    (hNext : next blob place = .ok (some (string, after))) :
    stringsUntilEmpty blob place =
      if string.isEmpty then .ok [] else (string :: ·) <$> stringsUntilEmpty blob after := by
  rw [stringsUntilEmpty]
  split <;> simp_all

theorem stringsUntilEmpty_eq (blob : Bytes) (place : Nat) :
    stringsUntilEmpty blob place = .ok ((terminated (blob.drop place)).takeWhile (!·.isEmpty)) := by
  induction hLeft : blob.length - place using Nat.strongRecOn generalizing place with
  | ind left ih =>
      obtain ⟨found, hNext, hFinds⟩ := next_finds blob place
      cases hFinds with
      | nothing hEnd =>
          rw [stringsUntilEmpty_of_nothing hNext, hEnd, terminated_nil]
          rfl
      | @string string after hPlace hAfter hStrings hRest =>
          have hLater := ih (blob.length - after) (by omega) after rfl
          rw [stringsUntilEmpty_of_string hNext, hStrings]
          by_cases hEmpty : string.isEmpty
          · simp [hEmpty]
          · simp [hEmpty, hLater]

/-- Reads a blob. -/
def ofBlob (blob : Bytes) : Except Outside (Except Failure Invocation) :=
  match announced blob with
  | .error failure => .ok (.error failure)
  | .ok count => do
    let path ← next blob 4
    let start := skipZeros blob ((path.map (·.2)).getD 4)
    let (arguments, last) ← strings blob count.toNatClampNeg start
    let environment ← stringsUntilEmpty blob last
    return .ok {
      arguments := arguments.map Text.Utf8.text
      environment := .ofLines (environment.map Text.Utf8.text) }

theorem ofBlob_eq (blob : Bytes) : ofBlob blob = .ok (Invocation.ofBlob blob) := by
  rw [ofBlob]
  cases hCount : announced blob with
  | error failure =>
      rw [Invocation.ofBlob, hCount]
      rfl
  | ok count =>
      rw [ofBlob_of_announced hCount]
      obtain ⟨path, hPath, hFinds⟩ := next_finds blob 4
      have hStart : blob.drop (skipZeros blob ((path.map (·.2)).getD 4)) = afterPadding blob := by
        rw [drop_skipZeros, afterPadding]
        cases hFinds with
        | nothing hEnd => simp [hEnd]
        | string hPlace hAfter hStrings hRest => simp [hRest]
      obtain ⟨last, hArguments, hBehind⟩ := strings_eq blob count.toNatClampNeg
        (skipZeros blob ((path.map (·.2)).getD 4))
      rw [hStart] at hArguments hBehind
      simp only [bind, Except.bind, hPath, hArguments, stringsUntilEmpty_eq, hBehind]
      rfl

end Cursor
end ProcessCensus.Invocation
