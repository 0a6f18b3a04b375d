import ProcessCensus.Proofs.Invocation.Shape

/-!
A blob that is cut short. The strings of its front are the first strings of the whole blob, of which
the last may be cut short as well; nothing moves to another place.
-/

namespace ProcessCensus.Invocation

/-- The first strings of others. Of the last one a front part is enough. -/
inductive CutShort : List Bytes → List Bytes → Prop where
  | nothing (strings : List Bytes) : CutShort [] strings
  | last {piece string : Bytes} (hPiece : piece <+: string) (strings : List Bytes) :
      CutShort [piece] (string :: strings)
  | cons (string : Bytes) {pieces strings : List Bytes} (hRest : CutShort pieces strings) :
      CutShort (string :: pieces) (string :: strings)

namespace CutShort

variable {pieces strings : List Bytes}

theorem length_le (hCut : CutShort pieces strings) : pieces.length ≤ strings.length := by
  induction hCut with
  | nothing strings => exact Nat.zero_le _
  | last hPiece strings => simp
  | cons string hRest ih => simpa using ih

/-- Before the last place they agree. -/
theorem getElem?_eq (hCut : CutShort pieces strings) {i : Nat} (hBefore : i + 1 < pieces.length) :
    pieces[i]? = strings[i]? := by
  induction hCut generalizing i with
  | nothing strings => cases hBefore
  | last hPiece strings => simp at hBefore
  | cons string hRest ih =>
      cases i with
      | zero => rfl
      | succ i =>
          simp only [List.length_cons, Nat.add_lt_add_iff_right] at hBefore
          simpa using ih hBefore

theorem exists_string (hCut : CutShort pieces strings) {i : Nat} {piece : Bytes}
    (hPiece : pieces[i]? = some piece) : ∃ string, strings[i]? = some string ∧ piece <+: string := by
  induction hCut generalizing i with
  | nothing strings => cases hPiece
  | @last first string hFirst strings =>
      cases i with
      | zero =>
          obtain rfl := Option.some.inj hPiece
          exact ⟨string, rfl, hFirst⟩
      | succ i => simp at hPiece
  | cons string hRest ih =>
      cases i with
      | zero =>
          obtain rfl := Option.some.inj hPiece
          exact ⟨string, rfl, List.prefix_rfl⟩
      | succ i =>
          rw [List.getElem?_cons_succ] at hPiece ⊢
          exact ih hPiece

/-- Only the last piece can differ. -/
theorem length_eq_of_ne (hCut : CutShort pieces strings) {i : Nat} {piece string : Bytes}
    (hPiece : pieces[i]? = some piece) (hString : strings[i]? = some string)
    (hShort : piece ≠ string) : pieces.length = i + 1 := by
  obtain ⟨hInside, -⟩ := List.getElem?_eq_some_iff.mp hPiece
  by_contra hLength
  have hSame := hCut.getElem?_eq (i := i) (by omega)
  rw [hPiece, hString] at hSame
  exact hShort (Option.some.inj hSame)

theorem take (hCut : CutShort pieces strings) (count : Nat) :
    CutShort (pieces.take count) (strings.take count) := by
  induction hCut generalizing count with
  | nothing strings =>
      rw [List.take_nil]
      exact .nothing _
  | last hPiece strings =>
      cases count with
      | zero => exact .nothing _
      | succ count =>
          rw [List.take_succ_cons, List.take_succ_cons, List.take_nil]
          exact .last hPiece _
  | cons string hRest ih =>
      cases count with
      | zero => exact .nothing _
      | succ count =>
          rw [List.take_succ_cons, List.take_succ_cons]
          exact .cons string (ih count)

end CutShort

/-- A cut inside a string leaves a piece of it, or nothing. -/
theorem cutShort_of_front {string front : Bytes} (hString : 0 ∉ string) (hFront : front <+: string)
    (strings : List Bytes) : CutShort (terminated front) (string :: strings) := by
  by_cases hEmpty : front = []
  case pos =>
    rw [hEmpty, terminated_nil]
    exact .nothing _
  case neg =>
    have hFree : 0 ∉ front := fun hZero => hString (hFront.subset hZero)
    rw [terminated_of_notMem hFree hEmpty]
    exact .last hFront strings

theorem cutShort_terminated {front bytes : Bytes} (hFront : front <+: bytes) :
    CutShort (terminated front) (terminated bytes) := by
  induction bytes using terminatedInduction generalizing front with
  | nil =>
      rw [List.prefix_nil.mp hFront]
      exact .nothing _
  | last string hString hSome =>
      rw [terminated_of_notMem hString hSome]
      exact cutShort_of_front hString hFront []
  | cons string rest hString ih =>
      rw [terminated_append_cons hString]
      -- The cut is inside the string, right behind it, or behind its zero byte.
      rcases List.prefix_or_prefix_of_prefix hFront (List.prefix_append string (0 :: rest)) with
        hInside | ⟨behind, rfl⟩
      · exact cutShort_of_front hString hInside _
      · rw [List.prefix_append_right_inj, List.prefix_cons_iff] at hFront
        rcases hFront with rfl | ⟨front, rfl, hLater⟩
        · rw [List.append_nil]
          exact cutShort_of_front hString List.prefix_rfl _
        · rw [terminated_append_cons hString]
          exact .cons string (ih hLater)

theorem dropWhile_front {front bytes : Bytes} (p : UInt8 → Bool) (hFront : front <+: bytes) :
    front.dropWhile p <+: bytes.dropWhile p := by
  obtain ⟨rest, rfl⟩ := hFront
  rw [List.dropWhile_append]
  split
  case isTrue hAll =>
    rw [List.isEmpty_iff.mp hAll]
    exact List.nil_prefix
  case isFalse => exact List.prefix_append _ _

theorem afterPadding_front {front bytes : Bytes} (hFront : front <+: bytes) :
    afterPadding front <+: afterPadding bytes := by
  apply dropWhile_front
  apply List.IsPrefix.drop
  apply dropWhile_front
  apply List.IsPrefix.drop
  exact hFront

theorem getElem?_argumentBytes {blob string : Bytes} {i : Nat} :
    (argumentBytes blob)[i]? = some string ↔
      i < (firstWord blob).toNat ∧ (terminated (afterPadding blob))[i]? = some string := by
  rw [argumentBytes, List.getElem?_take]
  split <;> simp_all

theorem firstWord_take {blob : Bytes} {n : Nat} (hWord : 4 ≤ n) :
    firstWord (blob.take n) = firstWord blob := by
  rw [firstWord, firstWord, firstCount, firstCount, List.take_take, Nat.min_eq_left hWord]

theorem Counted.take {blob : Bytes} (hCounted : Counted blob) {n : Nat} (hWord : 4 ≤ n) :
    Counted (blob.take n) := by
  constructor
  · rw [List.length_take]
    exact Nat.le_min.mpr ⟨hWord, hCounted.length⟩
  · rw [firstWord_take hWord]
    exact hCounted.positive
  · rw [firstWord_take hWord]
    exact hCounted.bounded

theorem cutShort_strings (blob : Bytes) (n : Nat) :
    CutShort (terminated (afterPadding (blob.take n))) (terminated (afterPadding blob)) :=
  cutShort_terminated (afterPadding_front (List.take_prefix n blob))

theorem cutShort_argumentBytes (blob : Bytes) {n : Nat} (hWord : 4 ≤ n) :
    CutShort (argumentBytes (blob.take n)) (argumentBytes blob) := by
  rw [argumentBytes, argumentBytes, firstWord_take hWord]
  exact (cutShort_strings blob n).take _

/-- An argument that is cut short is the last string of all. -/
theorem environmentBytes_of_ne {blob : Bytes} {n i : Nat} {piece string : Bytes}
    (hPiece : (argumentBytes (blob.take n))[i]? = some piece)
    (hString : (argumentBytes blob)[i]? = some string) (hShort : piece ≠ string) :
    environmentBytes (blob.take n) = [] := by
  rw [getElem?_argumentBytes] at hPiece hString
  have hLength := (cutShort_strings blob n).length_eq_of_ne hPiece.2 hString.2 hShort
  apply environmentBytes_eq_nil
  omega

/-- Cutting a blob short cuts its answer short. The last argument that is left may be cut short too,
and every other one stays as it is, in its place. If arguments are missing, or the last one is cut
short, no variable is told. -/
theorem ofBlob_take {blob : Bytes} {whole : Invocation} (hBlob : ofBlob blob = .ok whole) {n : Nat}
    (hWord : 4 ≤ n) :
    ∃ part, ofBlob (blob.take n) = .ok part ∧
      part.arguments = (argumentBytes (blob.take n)).map Text.Utf8.text ∧
      whole.arguments = (argumentBytes blob).map Text.Utf8.text ∧
      part.arguments.length ≤ whole.arguments.length ∧
      (∀ i, i + 1 < part.arguments.length → part.arguments[i]? = whole.arguments[i]?) ∧
      (∀ i piece, i + 1 = part.arguments.length → (argumentBytes (blob.take n))[i]? = some piece →
        ∃ string, (argumentBytes blob)[i]? = some string ∧ piece <+: string ∧
          (piece ≠ string → part.environment = .empty)) ∧
      (part.arguments.length < firstWord blob → part.environment = .empty) := by
  have hCounted := counted_of_ofBlob hBlob
  have hFront := hCounted.take hWord
  have hMissing := (hFront.shaped hFront.ofBlob_eq).environment_eq
  have hCut := cutShort_argumentBytes blob hWord
  rw [hCounted.ofBlob_eq] at hBlob
  cases hBlob
  rw [firstWord_take hWord] at hMissing
  refine ⟨_, hFront.ofBlob_eq, rfl, rfl, ?_, ?_, ?_, hMissing⟩
  · simpa using hCut.length_le
  · intro i hBefore
    rw [List.length_map] at hBefore
    rw [List.getElem?_map, List.getElem?_map, hCut.getElem?_eq hBefore]
  · intro i piece hLast hPiece
    obtain ⟨string, hString, hPrefix⟩ := hCut.exists_string hPiece
    refine ⟨string, hString, hPrefix, fun hShort => ?_⟩
    rw [environmentBytes_of_ne hPiece hString hShort]
    rfl

/-- The blob is cut inside the last argument, between the two bytes of its last character. -/
theorem ofBlob_take_split :
    let blob : Bytes := [2, 0, 0, 0, 47, 0, 0, 97, 0, 98, 0xC3, 0xA9, 0, 65, 61, 49, 0]
    ofBlob blob = .ok ⟨["a", "bé"], ⟨[("A", "1")]⟩⟩ ∧ 4 ≤ 11 ∧
      ofBlob (blob.take 11) = .ok ⟨["a", "b\ufffd"], .empty⟩ ∧
      argumentBytes (blob.take 11) = [[97], [98, 0xC3]] := by
  intro blob
  have hBlob : ofBlob blob = .ok ⟨["a", "bé"], ⟨[("A", "1")]⟩⟩ := by decide
  have hPieces : argumentBytes (blob.take 11) = [[97], [98, 0xC3]] := by decide
  have hStrings : argumentBytes blob = [[97], [98, 0xC3, 0xA9]] := by decide
  obtain ⟨part, hPart, hArguments, -, -, -, hLast, -⟩ := ofBlob_take hBlob (by decide : 4 ≤ 11)
  obtain ⟨arguments, environment⟩ := part
  obtain rfl : arguments = ["a", "b\ufffd"] := by
    rw [hPieces] at hArguments
    exact hArguments.trans (by decide)
  obtain ⟨string, hString, -, hShort⟩ := hLast 1 [98, 0xC3] rfl (by rw [hPieces]; rfl)
  rw [hStrings] at hString
  obtain rfl := Option.some.inj hString
  obtain rfl : environment = .empty := hShort (by decide)
  exact ⟨hBlob, by decide, hPart, hPieces⟩

end ProcessCensus.Invocation
