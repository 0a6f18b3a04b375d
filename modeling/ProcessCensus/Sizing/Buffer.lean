/-!
Buffers of which only the first elements have been written. They may be very long, so what was not
written is not spelled out. Main statements: a slice of a buffer is the slice of all its elements, and
a blank element ends what is read up to one.
-/

namespace ProcessCensus.Sizing

/-- A buffer of `length` elements: those written from the start on, and `blank` ones after them. -/
structure Buffer (α : Type) where
  blank : α
  written : List α
  length : Nat
  written_le : written.length ≤ length

namespace Buffer

variable {α : Type}

/-- The buffer of `length` elements over which `written` was written. What does not fit is left
out. -/
def ofWritten (blank : α) (written : List α) (length : Nat) : Buffer α where
  blank
  written := written.take length
  length
  written_le := List.length_take_le length written

/-- The elements of a buffer. -/
def toList (buffer : Buffer α) : List α :=
  buffer.written ++ List.replicate (buffer.length - buffer.written.length) buffer.blank

/-- The elements from `start` on, `count` of them at most. -/
def slice (buffer : Buffer α) (start count : Nat) : List α :=
  let part := (buffer.written.drop start).take count
  part ++ List.replicate (min count (buffer.length - start) - part.length) buffer.blank

/-- A buffer that is written to the end has no other elements. -/
theorem toList_ofWritten (blank : α) {written : List α} {length : Nat}
    (hLength : written.length = length) : (ofWritten blank written length).toList = written := by
  subst hLength
  simp [ofWritten, toList]

theorem length_toList (buffer : Buffer α) : buffer.toList.length = buffer.length := by
  have := buffer.written_le
  simp [toList]
  omega

theorem slice_eq (buffer : Buffer α) (start count : Nat) :
    buffer.slice start count = (buffer.toList.drop start).take count := by
  have := buffer.written_le
  simp only [slice, toList, List.drop_append, List.take_append, List.drop_replicate,
    List.take_replicate, List.length_take, List.length_drop]
  congr 2
  omega

end Buffer

end ProcessCensus.Sizing
