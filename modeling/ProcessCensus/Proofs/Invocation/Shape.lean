import ProcessCensus.Proofs.Environment
import ProcessCensus.Proofs.Invocation.Cursor

/-!
What a blob of any bytes can tell. It is refused if and only if its first word is no number of
arguments, and otherwise read to the end without reaching outside; no zero character and no variable
without a name comes out of it.
-/

namespace ProcessCensus.Invocation

/-- The first four bytes as a signed 32-bit number. -/
def firstCount (blob : Bytes) : Int32 :=
  Int32.ofNat (Bytes.toNat (blob.take 4))

def firstWord (blob : Bytes) : Int :=
  (firstCount blob).toInt

/-- The first word of the blob is a number of arguments. -/
structure Counted (blob : Bytes) : Prop where
  length : 4 ≤ blob.length
  positive : 1 ≤ firstWord blob
  bounded : firstWord blob ≤ 4096

theorem counted_iff {blob : Bytes} (hLength : 4 ≤ blob.length) :
    Counted blob ↔ 1 ≤ firstCount blob ∧ firstCount blob ≤ maxArguments := by
  have hOne : (1 : Int32).toInt = 1 := by decide
  have hMax : maxArguments.toInt = 4096 := by decide
  rw [Int32.le_iff_toInt_le, Int32.le_iff_toInt_le, ← firstWord, hOne, hMax]
  exact ⟨fun hCounted => ⟨hCounted.positive, hCounted.bounded⟩,
    fun ⟨hPositive, hBounded⟩ => ⟨hLength, hPositive, hBounded⟩⟩

theorem Counted.announced {blob : Bytes} (hCounted : Counted blob) :
    Invocation.announced blob = .ok (firstCount blob) := by
  rw [Invocation.announced, if_neg (Nat.not_lt.mpr hCounted.length)]
  exact if_pos ((counted_iff hCounted.length).mp hCounted)

/-- The number of arguments that are to be read is that of the first word. -/
theorem Counted.toNatClampNeg {blob : Bytes} (hCounted : Counted blob) :
    ((firstCount blob).toNatClampNeg : Int) = firstWord blob := by
  have hPositive := hCounted.positive
  rw [Int32.toNatClampNeg, ← firstWord]
  omega

theorem announced_of_not_counted {blob : Bytes} (hCounted : ¬Counted blob) :
    ∃ detail, announced blob = .error (.malformed "procargs" detail) := by
  rw [announced]
  split
  case isTrue => exact ⟨_, rfl⟩
  case isFalse hLength =>
    have hCount : ¬(1 ≤ firstCount blob ∧ firstCount blob ≤ maxArguments) := by
      rwa [counted_iff (Nat.not_lt.mp hLength)] at hCounted
    exact ⟨_, if_neg hCount⟩

/-- The arguments of a blob, byte by byte. -/
def argumentBytes (blob : Bytes) : List Bytes :=
  (terminated (afterPadding blob)).take (firstWord blob).toNat

/-- The environment of a blob, byte by byte. -/
def environmentBytes (blob : Bytes) : List Bytes :=
  ((terminated (afterPadding blob)).drop (firstWord blob).toNat).takeWhile (!·.isEmpty)

theorem Counted.ofBlob_eq {blob : Bytes} (hCounted : Counted blob) :
    ofBlob blob = .ok {
      arguments := (argumentBytes blob).map Text.Utf8.text
      environment := .ofLines ((environmentBytes blob).map Text.Utf8.text) } := by
  have hCount : (firstCount blob).toNatClampNeg = (firstWord blob).toNat := by
    rw [← hCounted.toNatClampNeg, Int.toNat_natCast]
  rw [ofBlob_of_announced hCounted.announced, hCount]
  rfl

theorem length_argumentBytes_le (blob : Bytes) :
    (argumentBytes blob).length ≤ (firstWord blob).toNat :=
  List.length_take_le _ _

/-- Nothing comes after arguments that are missing. -/
theorem environmentBytes_eq_nil {blob : Bytes}
    (hFew : (terminated (afterPadding blob)).length ≤ (firstWord blob).toNat) :
    environmentBytes blob = [] := by
  rw [environmentBytes, List.drop_eq_nil_of_le hFew]
  rfl

theorem zero_notMem_text {bytes string : Bytes} (hMem : string ∈ terminated bytes) :
    '\x00' ∉ (Text.Utf8.text string).toList :=
  fun hZero => zero_notMem_of_mem_terminated hMem (Text.Utf8.zero_mem_of_mem_text hZero)

theorem zero_notMem_argument {blob : Bytes} :
    ∀ argument ∈ (argumentBytes blob).map Text.Utf8.text, '\x00' ∉ argument.toList := by
  rw [List.forall_mem_map]
  intro string hMem
  exact zero_notMem_text (List.mem_of_mem_take hMem)

theorem zero_notMem_line {blob : Bytes} :
    ∀ line ∈ (environmentBytes blob).map Text.Utf8.text, '\x00' ∉ line.toList := by
  rw [List.forall_mem_map]
  intro string hMem
  exact zero_notMem_text (List.mem_of_mem_drop (List.takeWhile_subset _ hMem))

/-- What is told for a blob with `count` arguments. -/
structure Shaped (count : Int) (invocation : Invocation) : Prop where
  length_le : invocation.arguments.length ≤ count
  /-- If arguments are missing, so is all that would come after them. -/
  environment_eq : invocation.arguments.length < count → invocation.environment = .empty
  arguments : ∀ argument ∈ invocation.arguments, '\x00' ∉ argument.toList
  keys : ∀ key ∈ invocation.environment.keys, key ≠ "" ∧ '=' ∉ key.toList ∧ '\x00' ∉ key.toList
  values : ∀ entry ∈ invocation.environment.entries, '\x00' ∉ entry.2.toList
  nodup : invocation.environment.keys.Nodup

theorem Counted.shaped {blob : Bytes} {invocation : Invocation} (hCounted : Counted blob)
    (hBlob : ofBlob blob = .ok invocation) : Shaped (firstWord blob) invocation := by
  have hPositive := hCounted.positive
  rw [hCounted.ofBlob_eq] at hBlob
  cases hBlob
  constructor
  · have hLength := length_argumentBytes_le blob
    rw [List.length_map]
    omega
  · intro hFew
    have hNone : environmentBytes blob = [] := by
      apply environmentBytes_eq_nil
      rw [List.length_map, argumentBytes, List.length_take] at hFew
      omega
    rw [hNone]
    rfl
  · exact zero_notMem_argument
  · intro key hMem
    obtain ⟨⟨_, value⟩, hEntries, rfl⟩ := List.mem_map.mp hMem
    obtain ⟨hSome, hMark⟩ := Environment.named_of_mem_ofLines hEntries
    exact ⟨hSome, hMark, (Environment.notMem_of_mem_ofLines zero_notMem_line hEntries).1⟩
  · rintro ⟨key, value⟩ hEntries
    exact (Environment.notMem_of_mem_ofLines zero_notMem_line hEntries).2
  · exact Environment.nodup_keys_ofList _

theorem ofBlob_of_not_counted {blob : Bytes} (hCounted : ¬Counted blob) :
    ∃ detail, ofBlob blob = .error (.malformed "procargs" detail) := by
  obtain ⟨detail, hRefused⟩ := announced_of_not_counted hCounted
  refine ⟨detail, ?_⟩
  rw [ofBlob, hRefused]
  rfl

theorem counted_of_ofBlob {blob : Bytes} {invocation : Invocation}
    (hBlob : ofBlob blob = .ok invocation) : Counted blob := by
  by_contra hCounted
  obtain ⟨detail, hRefused⟩ := ofBlob_of_not_counted hCounted
  cases hRefused.symm.trans hBlob

theorem not_counted_iff {blob : Bytes} :
    ¬Counted blob ↔ blob.length < 4 ∨ firstWord blob < 1 ∨ 4096 < firstWord blob := by
  constructor
  · intro hNot
    by_contra hAll
    push Not at hAll
    obtain ⟨hLength, hPositive, hBounded⟩ := hAll
    exact hNot ⟨hLength, hPositive, hBounded⟩
  · rintro hWrong ⟨hLength, hPositive, hBounded⟩
    omega

/-- Reading a blob never reaches outside it and always comes to an answer. A blob is refused if its
first word is no number of arguments, and only then; what is told otherwise is well shaped. -/
theorem ofBlob_safe (blob : Bytes) :
    Cursor.ofBlob blob = .ok (ofBlob blob) ∧
      ((∃ detail, ofBlob blob = .error (.malformed "procargs" detail)) ↔
        blob.length < 4 ∨ firstWord blob < 1 ∨ 4096 < firstWord blob) ∧
      ((∃ invocation, ofBlob blob = .ok invocation) ↔ Counted blob) ∧
      ∀ invocation, ofBlob blob = .ok invocation → Shaped (firstWord blob) invocation := by
  refine ⟨Cursor.ofBlob_eq blob, ?_, ?_, fun invocation hBlob =>
    (counted_of_ofBlob hBlob).shaped hBlob⟩
  · rw [← not_counted_iff]
    constructor
    · rintro ⟨detail, hRefused⟩ hCounted
      cases hRefused.symm.trans (hCounted.ofBlob_eq)
    · exact ofBlob_of_not_counted
  · constructor
    · rintro ⟨invocation, hBlob⟩
      exact counted_of_ofBlob hBlob
    · exact fun hCounted => ⟨_, hCounted.ofBlob_eq⟩

-- The last string lacks its zero byte, and the one before it is empty.
example : ofBlob [3, 0, 0, 0, 47, 0, 0, 97, 0, 0, 255] = .ok ⟨["a", "", "\ufffd"], .empty⟩ := by
  decide

end ProcessCensus.Invocation
