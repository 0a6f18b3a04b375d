import ProcessCensus.Invocation
import ProcessCensus.Proofs.Bytes
import ProcessCensus.Proofs.Text.Split
import ProcessCensus.Proofs.Text.Utf8

/-!
The two forms in which kernels hand out how a process was started, written down: strings with a zero
byte after each, and the blob. Main statements: what is written comes back, in either form, and the
end of the blob, a zero byte with anything behind it, and a last string without its zero byte are
three ways to end the blob.
-/

namespace ProcessCensus.Invocation

/-- The strings with a zero byte after each. -/
def terminate (strings : List Bytes) : Bytes :=
  strings.flatMap (· ++ [0])

/-- The blob of a process: the number of its arguments, the path of its executable and as many zero
bytes as padding as there are, its arguments and its environment. -/
def blob (path : Bytes) (padding : Nat) (arguments environment : List Bytes) : Bytes :=
  Bytes.ofNat 4 arguments.length ++ path ++ 0 :: List.replicate padding 0 ++
    terminate (arguments ++ environment)

theorem terminate_concat (strings : List Bytes) (last : Bytes) :
    terminate (strings ++ [last]) = terminate strings ++ last ++ [0] := by
  simp [terminate]

theorem parts_terminate_append {strings : List Bytes} (hStrings : ∀ s ∈ strings, 0 ∉ s)
    (rest : Bytes) : Text.parts 0 (terminate strings ++ rest) = strings ++ Text.parts 0 rest :=
  Text.parts_flatMap_append hStrings rest

/-- Strings are read up to the end, whatever stands behind those with a zero byte after each. -/
theorem terminated_append {strings : List Bytes} (hStrings : ∀ s ∈ strings, 0 ∉ s) (rest : Bytes) :
    terminated (terminate strings ++ rest) = strings ++ terminated rest := by
  have hRest := Text.parts_ne_nil 0 rest
  simp only [terminated, parts_terminate_append hStrings, List.getLast?_append_of_ne_nil _ hRest]
  split
  · rw [List.dropLast_append_of_ne_nil hRest]
  · rfl

theorem terminated_nil : terminated [] = [] := rfl

theorem terminated_zero_cons (rest : Bytes) : terminated (0 :: rest) = [] :: terminated rest :=
  @terminated_append [[]] (by simp) rest

/-- A last string that is not empty needs no zero byte. -/
theorem terminated_of_notMem {last : Bytes} (hLast : 0 ∉ last) (hSome : last ≠ []) :
    terminated last = [last] := by
  rw [terminated, Text.parts_of_notMem hLast]
  simp [hSome]

/-- Strings with a zero byte after each come back, but for a single empty one. -/
theorem nulSeparated_terminate {strings : List Bytes} (hStrings : ∀ s ∈ strings, 0 ∉ s)
    (hEmpty : strings ≠ [[]]) : nulSeparated (terminate strings) = strings.map Text.Utf8.text := by
  rcases List.eq_nil_or_concat strings with rfl | ⟨first, last, rfl⟩
  · rfl
  · rw [List.concat_eq_append] at hStrings hEmpty ⊢
    have hFirst : ∀ s ∈ first, 0 ∉ s := fun s hMem => hStrings s (List.mem_append_left _ hMem)
    have hLast : 0 ∉ last := hStrings last (List.mem_append_right _ (List.mem_singleton_self last))
    have hBody : terminate first ++ last ≠ [] := by
      intro hNil
      obtain ⟨hBefore, rfl⟩ := List.append_eq_nil_iff.mp hNil
      cases first with
      | nil => exact hEmpty rfl
      | cons s first => simp [terminate] at hBefore
    rw [nulSeparated, terminate_concat, List.getLast?_concat, if_pos rfl, List.dropLast_concat,
      parts_terminate_append hFirst, Text.parts_of_notMem hLast]
    simp only [List.isEmpty_iff, hBody, if_false]

/-- For strings it is zero characters that count. -/
theorem zero_notMem_of_mem_map_bytes {strings : List String}
    (hStrings : ∀ s ∈ strings, '\x00' ∉ s.toList) :
    ∀ s ∈ strings.map Text.Utf8.bytes, 0 ∉ s := by
  rw [List.forall_mem_map]
  exact fun s hMem hZero => hStrings s hMem (Text.Utf8.zero_mem_bytes.mp hZero)

/-- What is behind the padding is found, if it does not begin like padding. -/
theorem afterPadding_append {count path : Bytes} (hCount : count.length = 4) (hPath : 0 ∉ path)
    (padding : Nat) {rest : Bytes} (hRest : rest.head? ≠ some 0) :
    afterPadding (count ++ path ++ 0 :: List.replicate padding 0 ++ rest) = rest := by
  have hStop : (0 :: List.replicate padding 0 ++ rest : Bytes).dropWhile (· != 0) =
      0 :: List.replicate padding 0 ++ rest := rfl
  have hSkip : rest.dropWhile (· == 0) = rest := by
    cases rest with
    | nil => rfl
    | cons b rest =>
        have hNot : b ≠ 0 := fun hZero => hRest (by rw [hZero]; rfl)
        exact List.dropWhile_cons_of_neg (by simpa using hNot)
  have hThrough : ∀ b ∈ path, (b != 0) = true := fun b hMem =>
    bne_iff_ne.mpr fun hZero => hPath (hZero ▸ hMem)
  rw [afterPadding, List.append_assoc, List.append_assoc, List.drop_left' hCount,
    List.dropWhile_append_of_pos hThrough, hStop, List.cons_append, List.drop_one, List.tail_cons,
    List.dropWhile_append_of_pos (by simp), hSkip]

theorem toInt_count {count : Nat} (hMax : count ≤ 4096) : (Int32.ofNat count).toInt = count :=
  Int32.toInt_ofNat_of_lt (Nat.lt_of_le_of_lt hMax (by decide))

theorem toNatClampNeg_count {count : Nat} (hMax : count ≤ 4096) :
    (Int32.ofNat count).toNatClampNeg = count :=
  Int32.toNatClampNeg_ofNat_of_lt (Nat.lt_of_le_of_lt hMax (by decide))

/-- The number of arguments is read from the first four bytes. -/
theorem announced_append {count : Nat} (hPos : 0 < count) (hMax : count ≤ 4096) (rest : Bytes) :
    announced (Bytes.ofNat 4 count ++ rest) = .ok (Int32.ofNat count) := by
  have hLength : ¬(Bytes.ofNat 4 count ++ rest).length < 4 := by simp
  have hRead : Bytes.toNat (Bytes.ofNat 4 count) = count :=
    Bytes.toNat_ofNat (Nat.lt_of_le_of_lt hMax (by decide))
  have hBounds : 1 ≤ Int32.ofNat count ∧ Int32.ofNat count ≤ maxArguments := by
    rw [Int32.le_iff_toInt_le, Int32.le_iff_toInt_le, toInt_count hMax]
    exact ⟨Int.ofNat_le.mpr hPos, Int.ofNat_le.mpr hMax⟩
  rw [announced, if_neg hLength, List.take_left' (Bytes.length_ofNat 4 count), hRead]
  exact if_pos hBounds

theorem ofBlob_of_announced {blob : Bytes} {count : Int32} (hCount : announced blob = .ok count) :
    ofBlob blob =
      let strings := terminated (afterPadding blob)
      .ok {
        arguments := (strings.take count.toNatClampNeg).map Text.Utf8.text
        environment := .ofLines
          (((strings.drop count.toNatClampNeg).takeWhile (!·.isEmpty)).map Text.Utf8.text) } := by
  rw [ofBlob, hCount]
  rfl

/-- A blob tells the arguments and the environment, if behind the padding stand the strings of both,
and nothing or an empty string after them. -/
theorem ofBlob_append {path : Bytes} {padding : Nat} {arguments environment more : List Bytes}
    {body : Bytes} (hPath : 0 ∉ path) (hPos : 0 < arguments.length)
    (hMax : arguments.length ≤ 4096) (hBody : body.head? ≠ some 0)
    (hStrings : terminated body = arguments ++ environment ++ more)
    (hEnvironment : [] ∉ environment) (hMore : ∀ s ∈ more.head?, s = []) :
    ofBlob (Bytes.ofNat 4 arguments.length ++ path ++ 0 :: List.replicate padding 0 ++ body) =
      .ok { arguments := arguments.map Text.Utf8.text
            environment := .ofLines (environment.map Text.Utf8.text) } := by
  have hTake : (environment ++ more).takeWhile (!·.isEmpty) = environment := by
    have hSome : ∀ s ∈ environment, (!s.isEmpty) = true := fun s hMem => by
      simpa using fun hEmpty : s = [] => hEnvironment (hEmpty ▸ hMem)
    have hStop : more.takeWhile (!·.isEmpty) = [] := by
      cases more with
      | nil => rfl
      | cons s more => rw [hMore s rfl]; rfl
    rw [List.takeWhile_append_of_pos hSome, hStop, List.append_nil]
  have hCount : announced
      (Bytes.ofNat 4 arguments.length ++ path ++ 0 :: List.replicate padding 0 ++ body) =
        .ok (Int32.ofNat arguments.length) := by
    rw [List.append_assoc, List.append_assoc]
    exact announced_append hPos hMax _
  rw [ofBlob_of_announced hCount, afterPadding_append (Bytes.length_ofNat 4 _) hPath padding hBody,
    hStrings, toNatClampNeg_count hMax, List.append_assoc]
  simp only [List.take_left, List.drop_left, hTake]

/-- What can be told apart in a blob: no string holds a zero byte, the first argument does not look
like padding, and no entry of the environment looks like its end. -/
structure Distinct (path : Bytes) (arguments environment : List Bytes) : Prop where
  path : 0 ∉ path
  first : ∃ first ∈ arguments.head?, first ≠ []
  length_le : arguments.length ≤ 4096
  arguments : ∀ s ∈ arguments, 0 ∉ s
  environment : ∀ s ∈ environment, s ≠ [] ∧ 0 ∉ s

namespace Distinct

variable {path : Bytes} {arguments environment : List Bytes}

theorem length_pos (hDistinct : Distinct path arguments environment) : 0 < arguments.length := by
  obtain ⟨first, hFirst, -⟩ := hDistinct.first
  exact List.length_pos_of_mem (List.mem_of_mem_head? hFirst)

theorem strings (hDistinct : Distinct path arguments environment) :
    ∀ s ∈ arguments ++ environment, 0 ∉ s := by
  intro s hMem
  rcases List.mem_append.mp hMem with hArgument | hEntry
  · exact hDistinct.arguments s hArgument
  · exact (hDistinct.environment s hEntry).2

/-- For strings it is zero characters that none of them may hold. -/
theorem of_strings {arguments environment : List String} (hPath : 0 ∉ path)
    (hFirst : ∃ first ∈ arguments.head?, first ≠ "") (hLength : arguments.length ≤ 4096)
    (hArguments : ∀ s ∈ arguments, '\x00' ∉ s.toList)
    (hEnvironment : ∀ s ∈ environment, s ≠ "" ∧ '\x00' ∉ s.toList) :
    Distinct path (arguments.map Text.Utf8.bytes) (environment.map Text.Utf8.bytes) where
  path := hPath
  first := by
    obtain ⟨first, hHead, hSome⟩ := hFirst
    refine ⟨Text.Utf8.bytes first, ?_, fun hNil => hSome (Text.Utf8.bytes_eq_nil.mp hNil)⟩
    rw [List.head?_map, hHead]
    rfl
  length_le := by rwa [List.length_map]
  arguments := zero_notMem_of_mem_map_bytes hArguments
  environment := by
    rw [List.forall_mem_map]
    intro s hMem
    obtain ⟨hSome, hFree⟩ := hEnvironment s hMem
    exact ⟨fun hNil => hSome (Text.Utf8.bytes_eq_nil.mp hNil),
      fun hZero => hFree (Text.Utf8.zero_mem_bytes.mp hZero)⟩

/-- Behind the padding stands the first argument, and then a zero byte. -/
theorem terminate_eq (hDistinct : Distinct path arguments environment) :
    ∃ b first others, b ≠ 0 ∧ terminate (arguments ++ environment) = b :: first ++ 0 :: others := by
  obtain ⟨first, hFirst, hSome⟩ := hDistinct.first
  cases arguments with
  | nil => cases hFirst
  | cons s arguments =>
      obtain rfl := Option.some.inj hFirst
      cases s with
      | nil => exact absurd rfl hSome
      | cons b first =>
          refine ⟨b, first, terminate (arguments ++ environment), ?_, by simp [terminate]⟩
          rintro rfl
          exact hDistinct.arguments _ List.mem_cons_self List.mem_cons_self

/-- If the strings behind the padding are those of the process, up to an empty one, they come
back. -/
theorem ofBlob_eq (hDistinct : Distinct path arguments environment) (padding : Nat)
    {body : Bytes} (more : List Bytes) (hBody : body.head? ≠ some 0)
    (hStrings : terminated body = arguments ++ environment ++ more)
    (hMore : ∀ s ∈ more.head?, s = []) :
    ofBlob (Bytes.ofNat 4 arguments.length ++ path ++ 0 :: List.replicate padding 0 ++ body) =
      .ok { arguments := arguments.map Text.Utf8.text
            environment := .ofLines (environment.map Text.Utf8.text) } :=
  ofBlob_append hDistinct.path hDistinct.length_pos hDistinct.length_le hBody hStrings
    (fun hMem => (hDistinct.environment [] hMem).1 rfl) hMore

/-- What is behind a zero byte after the last string plays no role. -/
theorem ofBlob_blob_append (hDistinct : Distinct path arguments environment) (padding : Nat)
    (rest : Bytes) (hRest : ∀ b ∈ rest.head?, b = 0) :
    ofBlob (blob path padding arguments environment ++ rest) =
      .ok { arguments := arguments.map Text.Utf8.text
            environment := .ofLines (environment.map Text.Utf8.text) } := by
  obtain ⟨b, first, others, hNot, hBody⟩ := hDistinct.terminate_eq
  rw [blob, List.append_assoc _ (terminate (arguments ++ environment))]
  refine hDistinct.ofBlob_eq padding _ ?_ (terminated_append hDistinct.strings rest) ?_
  · rw [hBody]
    exact fun hHead => hNot (Option.some.inj hHead)
  · cases rest with
    | nil => simp [terminated_nil]
    | cons c rest =>
        obtain rfl := hRest c rfl
        simp [terminated_zero_cons]

/-- The zero byte of the last string may be missing. -/
theorem ofBlob_dropLast (hDistinct : Distinct path arguments environment) (padding : Nat)
    (hLast : ∀ s ∈ (arguments ++ environment).getLast?, s ≠ []) :
    ofBlob (blob path padding arguments environment).dropLast =
      .ok { arguments := arguments.map Text.Utf8.text
            environment := .ofLines (environment.map Text.Utf8.text) } := by
  obtain ⟨b, first, others, hNot, hBody⟩ := hDistinct.terminate_eq
  have hSome : terminate (arguments ++ environment) ≠ [] := by simp [hBody]
  rw [blob, List.dropLast_append_of_ne_nil hSome]
  refine hDistinct.ofBlob_eq padding [] ?_ ?_ (by simp)
  · rw [hBody, List.dropLast_append_of_ne_nil (List.cons_ne_nil 0 others)]
    exact fun hHead => hNot (Option.some.inj hHead)
  · have hStrings := hDistinct.strings
    rw [List.append_nil]
    -- The strings end with one that is not empty.
    rcases List.eq_nil_or_concat (arguments ++ environment) with hNil | ⟨front, last, hConcat⟩
    · exact absurd hDistinct.length_pos (by simp [List.append_eq_nil_iff.mp hNil])
    · rw [List.concat_eq_append] at hConcat
      rw [hConcat] at hStrings hLast ⊢
      have hFront : ∀ s ∈ front, 0 ∉ s := fun s hMem => hStrings s (List.mem_append_left _ hMem)
      have hZero : 0 ∉ last := hStrings last (by simp)
      rw [terminate_concat, List.dropLast_concat, terminated_append hFront,
        terminated_of_notMem hZero (hLast last (by simp))]

end Distinct

/-- Reading a blob undoes writing it. Any number of zero bytes may stand between the path and the
arguments; the blob may end after the last string, go on with a zero byte and anything behind it, or
lack the zero byte of the last string if that is not empty. -/
theorem ofBlob_blob (path : Bytes) (padding : Nat) (arguments environment : List String)
    (tail : Bytes)
    (hDistinct : Distinct path (arguments.map Text.Utf8.bytes) (environment.map Text.Utf8.bytes)) :
    let image := blob path padding (arguments.map Text.Utf8.bytes) (environment.map Text.Utf8.bytes)
    let answer : Except Failure Invocation := .ok { arguments, environment := .ofLines environment }
    ofBlob image = answer ∧ ofBlob (image ++ 0 :: tail) = answer ∧
      ((∀ s ∈ (arguments ++ environment).getLast?, s ≠ "") → ofBlob image.dropLast = answer) := by
  have hText : ∀ strings : List String,
      (strings.map Text.Utf8.bytes).map Text.Utf8.text = strings := by
    intro strings
    simp [Function.comp_def]
  refine ⟨?_, ?_, fun hLast => ?_⟩
  · have hPlain := hDistinct.ofBlob_blob_append padding [] (by simp)
    rwa [List.append_nil, hText, hText] at hPlain
  · have hTail := hDistinct.ofBlob_blob_append padding (0 :: tail) (by simp)
    rwa [hText, hText] at hTail
  · have hCut := hDistinct.ofBlob_dropLast padding (by
      rw [← List.map_append, List.getLast?_map]
      rintro s hMem
      obtain ⟨string, hString, rfl⟩ := Option.map_eq_some_iff.mp hMem
      exact fun hEmpty => hLast string hString (Text.Utf8.bytes_eq_nil.mp hEmpty))
    rwa [hText, hText] at hCut

/-- Empty arguments, arguments that look like the environment, and a variable that is set twice. -/
theorem ofBlob_blob_crowded :
    let arguments := ["sh", "", "X=1", "é"]
    let environment := ["A=1", "A=2", "HOME"]
    let image := blob [47, 98] 2 (arguments.map Text.Utf8.bytes) (environment.map Text.Utf8.bytes)
    Distinct [47, 98] (arguments.map Text.Utf8.bytes) (environment.map Text.Utf8.bytes) ∧
      ofBlob image = .ok ⟨["sh", "", "X=1", "é"], ⟨[("A", "2")]⟩⟩ ∧
      ofBlob (image ++ [0, 66, 61]) = .ok ⟨["sh", "", "X=1", "é"], ⟨[("A", "2")]⟩⟩ ∧
      ofBlob image.dropLast = .ok ⟨["sh", "", "X=1", "é"], ⟨[("A", "2")]⟩⟩ := by
  intro arguments environment image
  have hDistinct : Distinct [47, 98] (arguments.map Text.Utf8.bytes)
      (environment.map Text.Utf8.bytes) :=
    .of_strings (by decide) ⟨_, rfl, by decide⟩ (by decide) (by decide) (by decide)
  have hEnvironment : Environment.ofLines environment = ⟨[("A", "2")]⟩ := by decide
  obtain ⟨hPlain, hTail, hCut⟩ := ofBlob_blob [47, 98] 2 arguments environment [66, 61] hDistinct
  rw [hEnvironment] at hPlain hTail hCut
  exact ⟨hDistinct, hPlain, hTail, hCut (by decide)⟩

end ProcessCensus.Invocation
