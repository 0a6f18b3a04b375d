import ProcessCensus.Record.Fault

/-!
Layouts of fixed-size records. Offsets and sizes are not written down: they follow from the members
of a record by the alignment rule of C, where a member starts at the next multiple of its alignment
and a record ends at a multiple of the largest one.
-/

namespace ProcessCensus.Record

/-- The least multiple of `alignment` that is not below `n`. -/
def roundUp (n alignment : Nat) : Nat :=
  (n + alignment - 1) / alignment * alignment

/-- Position and width of one named field. The path of a nested field has dots. -/
structure Field where
  path : String
  offset : Nat
  size : Nat
deriving DecidableEq, Repr

/-- Shape of a fixed-size record. The fields stand in the order of their declaration, those of
nested records after the record's own. -/
structure Layout where
  name : String
  size : Nat
  alignment : Nat
  fields : List Field
deriving DecidableEq, Repr

/-- What a member of a record is: an integer of `width` bytes, `count` of them, or a record. -/
inductive Shape where
  | word (width : Nat)
  | array (width count : Nat)
  | record (layout : Layout)

/-- The bytes that a member takes. -/
def Shape.size : Shape → Nat
  | word width => width
  | array width count => width * count
  | record layout => layout.size

/-- A member starts at a multiple of this. -/
def Shape.alignment : Shape → Nat
  | word width => width
  | array width _ => width
  | record layout => layout.alignment

/-- A named member of a record. -/
structure Member where
  name : String
  shape : Shape

/-- The members with their offsets, from `start` on. -/
def place (start : Nat) : List Member → List (Member × Nat)
  | [] => []
  | m :: rest =>
    let offset := roundUp start m.shape.alignment
    (m, offset) :: place (offset + m.shape.size) rest

/-- The layout with the fields of `inner`, placed at `offset`, under the path `head`. -/
def Layout.embed (outer : Layout) (head : String) (offset : Nat) (inner : Layout) : Layout :=
  { outer with
    fields := outer.fields ++ inner.fields.map fun f =>
      { path := head ++ "." ++ f.path, offset := offset + f.offset, size := f.size } }

/-- The layout with the fields of a member that is a record. -/
def Layout.embedMember (outer : Layout) (placed : Member × Nat) : Layout :=
  match placed.1.shape with
  | .record inner => outer.embed placed.1.name placed.2 inner
  | _ => outer

/-- The layout of a record with the given members in order. -/
def Layout.ofMembers (name : String) (members : List Member) : Layout :=
  let placed := place 0 members
  let alignment := members.foldl (fun a m => max a m.shape.alignment) 1
  let size := placed.foldl (fun _ (m, offset) => offset + m.shape.size) 0
  let own : Layout :=
    { name, alignment
      size := roundUp size alignment
      fields := placed.map fun (m, offset) =>
        { path := m.name, offset, size := m.shape.size } }
  placed.foldl Layout.embedMember own

/-- The first field with the given path. -/
def Layout.field (layout : Layout) (path : String) : Except Fault Field :=
  match layout.fields.find? (·.path == path) with
  | some field => .ok field
  | none => .error (.unknownField layout.name path)

end ProcessCensus.Record
