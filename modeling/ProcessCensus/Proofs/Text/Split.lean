import ProcessCensus.Text.Split
import Mathlib.Data.List.Basic
import Mathlib.Data.List.TakeWhile

/-!
Cutting a text and putting it together again. The parts between occurrences of a mark are those of
the core library, so what is joined by marks comes apart at them.
-/

namespace ProcessCensus.Text

variable {α : Type}

theorem partsFrom_eq_splitOnPPrepend [BEq α] (mark : α) (text current : List α) :
    partsFrom mark current text = text.splitOnPPrepend (· == mark) current := by
  induction text generalizing current with
  | nil => rfl
  | cons c text ih => simp only [partsFrom, List.splitOnPPrepend, ih]

theorem parts_eq_splitOn [BEq α] (mark : α) (text : List α) : parts mark text = text.splitOn mark :=
  partsFrom_eq_splitOnPPrepend mark text []

theorem parts_ne_nil [BEq α] (mark : α) (text : List α) : parts mark text ≠ [] := by
  rw [parts_eq_splitOn]
  exact List.splitOn_ne_nil mark text

/-- Without the mark there is one part. -/
theorem parts_of_notMem [BEq α] [LawfulBEq α] {mark : α} {text : List α} (hMark : mark ∉ text) :
    parts mark text = [text] := by
  rw [parts_eq_splitOn]
  exact List.splitOn_eq_singleton hMark

/-- Pieces that end with the mark come apart, whatever follows them. -/
theorem parts_flatMap_append [BEq α] [LawfulBEq α] {mark : α} {pieces : List (List α)}
    (hPieces : ∀ piece ∈ pieces, mark ∉ piece) (rest : List α) :
    parts mark (pieces.flatMap (· ++ [mark]) ++ rest) = pieces ++ parts mark rest := by
  simp only [parts_eq_splitOn]
  induction pieces with
  | nil => rfl
  | cons piece pieces ih =>
      rw [List.flatMap_cons, List.append_assoc, List.append_assoc, List.singleton_append,
        List.splitOn_append_cons_self_of_not_mem (hPieces piece List.mem_cons_self),
        ih fun other hOther => hPieces other (List.mem_cons_of_mem piece hOther)]
      rfl

theorem flatMap_partsFrom [BEq α] [LawfulBEq α] (mark : α) (text current : List α) :
    (partsFrom mark current text).flatMap (· ++ [mark]) = current.reverse ++ text ++ [mark] := by
  induction text generalizing current with
  | nil => simp [partsFrom]
  | cons c text ih =>
      rw [partsFrom]
      split
      case isTrue hMark =>
        obtain rfl := eq_of_beq hMark
        rw [List.flatMap_cons, ih]
        simp
      case isFalse =>
        rw [ih]
        simp

/-- With a mark behind each of them, the parts make up the text and one more mark. -/
theorem flatMap_parts [BEq α] [LawfulBEq α] (mark : α) (text : List α) :
    (parts mark text).flatMap (· ++ [mark]) = text ++ [mark] :=
  flatMap_partsFrom mark text []

theorem notMem_of_mem_partsFrom [BEq α] [LawfulBEq α] {mark : α} {text current part : List α}
    (hCurrent : mark ∉ current) (hPart : part ∈ partsFrom mark current text) : mark ∉ part := by
  induction text generalizing current with
  | nil =>
      obtain rfl := List.mem_singleton.mp hPart
      rwa [List.mem_reverse]
  | cons c text ih =>
      rw [partsFrom] at hPart
      split at hPart
      case isTrue =>
        rcases List.mem_cons.mp hPart with rfl | hRest
        · rwa [List.mem_reverse]
        · exact ih List.not_mem_nil hRest
      case isFalse hMark =>
        have hOther : mark ≠ c := by
          rintro rfl
          exact hMark BEq.rfl
        exact ih (List.not_mem_cons_of_ne_of_not_mem hOther hCurrent) hPart

/-- No part holds the mark. -/
theorem notMem_of_mem_parts [BEq α] [LawfulBEq α] {mark : α} {text part : List α}
    (hPart : part ∈ parts mark text) : mark ∉ part :=
  notMem_of_mem_partsFrom List.not_mem_nil hPart

theorem mem_of_mem_parts [BEq α] [LawfulBEq α] {mark x : α} {text part : List α}
    (hPart : part ∈ parts mark text) (hMem : x ∈ part) : x ∈ text := by
  have hText : x ∈ (parts mark text).flatMap (· ++ [mark]) :=
    List.mem_flatMap.mpr ⟨part, hPart, List.mem_append_left _ hMem⟩
  rw [flatMap_parts, List.mem_append, List.mem_singleton] at hText
  refine hText.resolve_right ?_
  rintro rfl
  exact notMem_of_mem_parts hPart hMem

/-- The first occurrence of a mark is the one with no other before it. -/
theorem splitOnce_eq_some_iff {mark : Char} {text before after : List Char} :
    splitOnce mark text = some (before, after) ↔ mark ∉ before ∧ text = before ++ mark :: after := by
  induction text generalizing before with
  | nil => simp [splitOnce]
  | cons c text ih =>
      rw [splitOnce]
      split
      case isTrue hMark =>
        subst hMark
        constructor
        · intro hSome
          obtain ⟨rfl, rfl⟩ := Prod.mk.inj (Option.some.inj hSome)
          exact ⟨List.not_mem_nil, rfl⟩
        · rintro ⟨hFree, hText⟩
          cases before with
          | nil => rw [List.nil_append, List.cons.injEq] at hText; rw [hText.2]
          | cons d before =>
              rw [List.cons_append, List.cons.injEq] at hText
              exact absurd (hText.1 ▸ List.mem_cons_self) hFree
      case isFalse hMark =>
        constructor
        · intro hSome
          obtain ⟨⟨first, second⟩, hRest, hPair⟩ := Option.map_eq_some_iff.mp hSome
          obtain ⟨rfl, rfl⟩ := Prod.mk.inj hPair
          obtain ⟨hFree, rfl⟩ := ih.mp hRest
          exact ⟨fun hMem => (List.mem_cons.mp hMem).elim (fun hEq => hMark hEq.symm) hFree, rfl⟩
        · rintro ⟨hFree, hText⟩
          cases before with
          | nil => exact absurd (List.cons.inj hText).1 hMark
          | cons d before =>
              obtain ⟨rfl, rfl⟩ := List.cons.inj hText
              rw [ih.mpr ⟨fun hMem => hFree (List.mem_cons_of_mem c hMem), rfl⟩]
              rfl

theorem splitOnce_eq_none_iff {mark : Char} {text : List Char} :
    splitOnce mark text = none ↔ mark ∉ text := by
  induction text with
  | nil => simp [splitOnce]
  | cons c text ih =>
      rw [splitOnce, List.mem_cons, not_or]
      split
      case isTrue hMark => simp [hMark]
      case isFalse hMark => simp [ih, Ne.symm hMark]

theorem splitOnce_append_cons {mark : Char} {before : List Char} (hFree : mark ∉ before)
    (after : List Char) : splitOnce mark (before ++ mark :: after) = some (before, after) :=
  splitOnce_eq_some_iff.mpr ⟨hFree, rfl⟩

theorem splitOnce_append_singleton {mark c : Char} (hOther : c ≠ mark) (text : List Char) :
    splitOnce mark (text ++ [c]) =
      (splitOnce mark text).map fun (before, after) => (before, after ++ [c]) := by
  induction text with
  | nil => simp [splitOnce, hOther]
  | cons d text ih =>
      rw [List.cons_append, splitOnce, splitOnce, ih]
      split
      · rfl
      · cases splitOnce mark text <;> rfl

/-- This is what stands behind the last mark, or the whole text if there is none. -/
inductive EndsIn (mark : Char) : List Char → List Char → Prop
  | whole {text : List Char} (hFree : mark ∉ text) : EndsIn mark text text
  | behind {front base : List Char} (hFree : mark ∉ base) : EndsIn mark (front ++ mark :: base) base

theorem endsIn_lastComponent (mark : Char) (text : List Char) :
    EndsIn mark text (lastComponent mark text) := by
  have hFree : mark ∉ lastComponent mark text := by
    intro hMem
    have hOther := List.mem_takeWhile_imp (List.mem_reverse.mp hMem)
    simp at hOther
  have hText : (text.reverse.dropWhile (· != mark)).reverse ++ lastComponent mark text = text := by
    rw [lastComponent, ← List.reverse_append, List.takeWhile_append_dropWhile, List.reverse_reverse]
  generalize hRest : text.reverse.dropWhile (· != mark) = rest at hText
  generalize lastComponent mark text = base at hFree hText
  subst hText
  cases rest with
  | nil => exact .whole hFree
  | cons c rest =>
      have hMark := List.head_dropWhile_not (· != mark) (by rw [hRest]; exact List.cons_ne_nil c rest)
      simp only [hRest, List.head_cons] at hMark
      obtain rfl : c = mark := by simpa using hMark
      rw [List.reverse_cons, List.append_assoc, List.singleton_append]
      exact .behind hFree

/-- Lines that end with a line feed come apart. -/
theorem lines_flatMap {rows : List (List Char)} (hRows : ∀ row ∈ rows, '\n' ∉ row) :
    lines (rows.flatMap (· ++ ['\n'])) = rows.map dropReturn := by
  have hParts := parts_flatMap_append hRows []
  rw [List.append_nil] at hParts
  rw [lines, hParts, parts_of_notMem List.not_mem_nil]
  simp

theorem notMem_intercalate {c : Char} {separator : List Char} (hSeparator : c ∉ separator)
    {pieces : List (List Char)} (hPieces : ∀ piece ∈ pieces, c ∉ piece) :
    c ∉ separator.intercalate pieces := by
  induction pieces with
  | nil => simp
  | cons piece pieces ih =>
      cases pieces with
      | nil => simpa using hPieces
      | cons next pieces =>
          have hRest := ih fun other hMem => hPieces other (List.mem_cons_of_mem piece hMem)
          simp [List.intercalate_cons_cons, hPieces piece List.mem_cons_self, hSeparator, hRest]

end ProcessCensus.Text
