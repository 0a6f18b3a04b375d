import ProcessCensus.Chunks
import Mathlib.Algebra.Order.Floor.Div
import Mathlib.Data.List.TakeDrop

/-!
Cutting a list into pieces loses nothing, makes no empty piece and no more pieces than were wanted.
-/

namespace ProcessCensus

variable {α : Type}

theorem ceilDiv_eq (count size : Nat) : ceilDiv count size = count ⌈/⌉ size :=
  (Nat.ceilDiv_eq_add_pred_div count size).symm

theorem ceilDiv_pos {count size : Nat} (hCount : 0 < count) (hSize : 0 < size) :
    0 < ceilDiv count size := by
  rw [ceilDiv_eq, Nat.pos_iff_ne_zero]
  intro hZero
  have hLe : count ≤ size * 0 := (ceilDiv_le_iff_le_mul hSize).mp hZero.le
  omega

/-- Groups of the size that is right for `groups` groups are no more than that. -/
theorem ceilDiv_ceilDiv_le {count groups : Nat} (hCount : 0 < count) (hGroups : 0 < groups) :
    ceilDiv count (ceilDiv count groups) ≤ groups := by
  have hCover : count ≤ groups * (count ⌈/⌉ groups) := (ceilDiv_le_iff_le_mul hGroups).mp le_rfl
  rw [ceilDiv_eq count (ceilDiv count groups), ceilDiv_le_iff_le_mul (ceilDiv_pos hCount hGroups),
    ceilDiv_eq, Nat.mul_comm]
  exact hCover

@[simp] theorem length_chunks (size : Nat) (list : List α) :
    (chunks size list).length = ceilDiv list.length size := by
  simp [chunks]

private theorem flatten_pieces (size : Nat) (list : List α) (count : Nat) :
    ((List.range count).map fun i => (list.drop (i * size)).take size).flatten =
      list.take (count * size) := by
  induction count with
  | zero => simp
  | succ count ih =>
      rw [List.range_succ, List.map_append, List.flatten_append, ih, Nat.succ_mul, List.take_add]
      simp

/-- The pieces in their order are the list. -/
theorem flatten_chunks {size : Nat} (hSize : 0 < size) (list : List α) :
    (chunks size list).flatten = list := by
  have hCover : list.length ≤ size * ceilDiv list.length size := by
    rw [ceilDiv_eq]
    exact (ceilDiv_le_iff_le_mul hSize).mp le_rfl
  rw [chunks, flatten_pieces]
  exact List.take_of_length_le (by rwa [Nat.mul_comm])

theorem nil_notMem_chunks {size : Nat} (hSize : 0 < size) (list : List α) :
    [] ∉ chunks size list := by
  intro hMem
  obtain ⟨i, hi, hPiece⟩ := List.mem_map.mp hMem
  have hBefore : i * size < list.length := by
    have hLt : i < list.length ⌈/⌉ size := by
      rw [← ceilDiv_eq]
      exact List.mem_range.mp hi
    by_contra hNot
    exact absurd ((ceilDiv_le_iff_le_mul hSize).mpr (by rw [Nat.mul_comm]; omega)) (not_le.mpr hLt)
  have hLength := congrArg List.length hPiece
  simp only [List.length_take, List.length_drop, List.length_nil] at hLength
  omega

end ProcessCensus
