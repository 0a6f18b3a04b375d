import ProcessCensus.Windows.Table
import Mathlib.Data.List.Induction

/-!
The process table of Windows as a map. Main statements: of several rows for one pid the last one is
looked up, and the pids of the table are those of the rows, each once and in ascending order.
-/

namespace ProcessCensus.Windows.Table

variable {pid other : Int32} {row : Row} {table : Table}

theorem lookup_insert (pid other : Int32) (row : Row) (table : Table) :
    (table.insert pid row).lookup other = if other = pid then some row else table.lookup other := by
  induction table with
  | nil =>
      simp only [insert, List.lookup_cons, List.lookup_nil]
      grind
  | cons entry rest ih =>
      obtain ⟨first, held⟩ := entry
      rw [insert]
      split
      · grind
      · split <;> grind

theorem mem_pids_insert (pid other : Int32) (row : Row) (table : Table) :
    other ∈ (table.insert pid row).pids ↔ other = pid ∨ other ∈ table.pids := by
  induction table with
  | nil => simp [insert, pids]
  | cons entry rest ih =>
      obtain ⟨first, held⟩ := entry
      rw [insert]
      split
      · simp [pids]
      · split
        · simp_all [pids]
        · simp only [pids, List.map_cons, List.mem_cons] at ih ⊢
          rw [ih, or_left_comm]

/-- The pids of the table ascend. -/
def Ascending (table : Table) : Prop :=
  table.pids.Pairwise (· < ·)

theorem Ascending.insert (hTable : table.Ascending) (pid : Int32) (row : Row) :
    (table.insert pid row).Ascending := by
  induction table with
  | nil => simp [Ascending, Table.insert, pids]
  | cons entry rest ih =>
      obtain ⟨first, held⟩ := entry
      obtain ⟨hFirst, hRest⟩ := List.pairwise_cons.mp hTable
      rw [Table.insert]
      split
      next hBefore =>
        refine List.pairwise_cons.mpr ⟨fun other hOther => ?_, hTable⟩
        obtain rfl | hOther := List.mem_cons.mp hOther
        · exact hBefore
        · exact Int32.lt_trans hBefore (hFirst other hOther)
      next hNotBefore =>
        split
        next hSame => exact List.pairwise_cons.mpr ⟨hSame ▸ hFirst, hRest⟩
        next hOther =>
          refine List.pairwise_cons.mpr ⟨fun other hMember => ?_, ih hRest⟩
          obtain rfl | hMember := (mem_pids_insert pid other row rest).mp hMember
          · exact Int32.lt_of_le_of_ne (Int32.not_lt.mp hNotBefore) (Ne.symm hOther)
          · exact hFirst other hMember

/-- A further row is put into the table of the rows in front of it. -/
theorem ofRows_concat (rows : List (Int32 × Row)) (entry : Int32 × Row) :
    ofRows (rows ++ [entry]) = (ofRows rows).insert entry.1 entry.2 :=
  List.foldl_append

theorem ascending_ofRows (rows : List (Int32 × Row)) : (ofRows rows).Ascending := by
  induction rows using List.reverseRecOn with
  | nil => exact List.Pairwise.nil
  | append_singleton rows entry ih =>
      rw [ofRows_concat]
      exact ih.insert entry.1 entry.2

theorem mem_pids_ofRows (rows : List (Int32 × Row)) (pid : Int32) :
    pid ∈ (ofRows rows).pids ↔ pid ∈ rows.map (·.1) := by
  induction rows using List.reverseRecOn with
  | nil => rfl
  | append_singleton rows entry ih =>
      rw [ofRows_concat, mem_pids_insert, ih, List.map_append, List.mem_append, or_comm]
      simp

/-- Of several rows for one pid, the last one is looked up. -/
theorem lookup_ofRows (rows : List (Int32 × Row)) (pid : Int32) :
    (ofRows rows).lookup pid = rows.reverse.lookup pid := by
  induction rows using List.reverseRecOn with
  | nil => rfl
  | append_singleton rows entry ih =>
      rw [ofRows_concat, lookup_insert, ih, List.reverse_concat, List.lookup_cons]
      grind

end ProcessCensus.Windows.Table
