import ProcessCensus.Bytes
import ProcessCensus.Record.Layout

/-!
Writing named fields into the bytes of a record, as a kernel does when it fills one.
-/

namespace ProcessCensus.Record.Layout

/-- The record with the lowest bytes of a field overwritten. What does not fit into the field is left
out, and a record without the field stays as it is. -/
def write (layout : Layout) (path : String) (value : Bytes) (record : Bytes) : Bytes :=
  match layout.field path with
  | .ok field => record.overwrite field.offset (value.take field.size)
  | .error _ => record

end ProcessCensus.Record.Layout
