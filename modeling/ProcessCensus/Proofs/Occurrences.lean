import Mathlib.Data.List.Induction
import Mathlib.Data.Finset.Card

/-!
Lists with their repetitions left out. Each element stays where it occurs first, so an element at the
end adds something only if it is new.
-/

namespace ProcessCensus

variable {α : Type}

theorem eraseDups_concat [BEq α] [LawfulBEq α] (xs : List α) (x : α) :
    (xs ++ [x]).eraseDups = if x ∈ xs then xs.eraseDups else xs.eraseDups ++ [x] := by
  rw [List.eraseDups_append]
  split
  case isTrue hKnown => simp [List.removeAll, hKnown]
  case isFalse hNew => simp [List.removeAll, hNew, List.eraseDups_cons]

theorem nodup_eraseDups [BEq α] [LawfulBEq α] (xs : List α) : xs.eraseDups.Nodup := by
  induction xs using List.reverseRecOn with
  | nil => exact List.nodup_nil
  | append_singleton xs x ih =>
      rw [eraseDups_concat]
      split
      case isTrue => exact ih
      case isFalse hNew =>
        rw [← List.concat_eq_append]
        exact List.Nodup.concat (fun hMem => hNew (List.mem_eraseDups.mp hMem)) ih

theorem eraseDups_filter [BEq α] [LawfulBEq α] (keep : α → Bool) (xs : List α) :
    (xs.filter keep).eraseDups = xs.eraseDups.filter keep := by
  induction xs using List.reverseRecOn with
  | nil => rfl
  | append_singleton xs x ih =>
      rw [List.filter_append, eraseDups_concat]
      by_cases hKnown : x ∈ xs <;> cases hKeep : keep x <;>
        simp [eraseDups_concat, hKnown, hKeep, ih]

/-- Of two elements the one that is left first has occurred where the other one has not yet. -/
theorem pairwise_eraseDups [BEq α] [LawfulBEq α] (xs : List α) :
    xs.eraseDups.Pairwise fun a b => ∃ before after, xs = before ++ a :: after ∧ b ∉ before := by
  induction xs using List.reverseRecOn with
  | nil => exact .nil
  | append_singleton xs x ih =>
      have hOld : xs.eraseDups.Pairwise
          fun a b => ∃ before after, xs ++ [x] = before ++ a :: after ∧ b ∉ before := by
        refine ih.imp ?_
        rintro a b ⟨before, after, hSplit, hFree⟩
        exact ⟨before, after ++ [x], by rw [hSplit]; simp, hFree⟩
      rw [eraseDups_concat]
      split
      case isTrue => exact hOld
      case isFalse hNew =>
        refine List.pairwise_append.mpr ⟨hOld, List.pairwise_singleton _ _, ?_⟩
        intro a hA b hB
        obtain rfl := List.mem_singleton.mp hB
        obtain ⟨before, after, rfl⟩ := List.append_of_mem (List.mem_eraseDups.mp hA)
        exact ⟨before, after ++ [b], by simp, fun hMem => hNew (List.mem_append_left _ hMem)⟩

/-- What is left is counted as a set is. -/
theorem length_eraseDups [DecidableEq α] (xs : List α) : xs.eraseDups.length = xs.toFinset.card := by
  rw [← List.toFinset_card_of_nodup (nodup_eraseDups xs)]
  congr 1
  ext x
  simp

end ProcessCensus
