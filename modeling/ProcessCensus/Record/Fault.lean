/-!
What is wrong with a read of a record that its layout does not allow. Such a read is a mistake of
the reader, never of the kernel that filled the record.
-/

namespace ProcessCensus.Record

/-- Why a read is refused. -/
inductive Fault where
  /-- The record has no such field. -/
  | unknownField (record path : String)
  /-- The buffer is shorter than the record. -/
  | shortBuffer (record : String) (needed held : Nat)
  /-- The field is `width` bytes wide, not as wide as the value asked for. -/
  | wrongWidth (record path : String) (width : Nat)
deriving DecidableEq, Repr

/-- The text of a fault. -/
def Fault.message : Fault → String
  | unknownField record path => s!"{record} has no field `{path}`"
  | shortBuffer record needed held => s!"{record} needs {needed} bytes, buffer holds {held}"
  | wrongWidth record path width => s!"{record}.{path} is {width} bytes wide"

end ProcessCensus.Record
