import ProcessCensus.Record.Layout
import ProcessCensus.Text.Utf16

/-!
Reading named fields out of the bytes of a record. Numbers are little-endian and addresses are
eight bytes wide. A buffer may be longer than the record; what lies beyond it is never looked at.
-/

namespace ProcessCensus.Record.Layout

open ProcessCensus.Text

/-- The bytes of a field. A short buffer is noticed before an unknown path. -/
def bytes (layout : Layout) (buffer : Bytes) (path : String) : Except Fault Bytes := do
  if buffer.length < layout.size then
    throw (.shortBuffer layout.name layout.size buffer.length)
  let field ← layout.field path
  return (buffer.drop field.offset).take field.size

/-- The number in a field that has to be `width` bytes wide. -/
def word (layout : Layout) (width : Nat) (buffer : Bytes) (path : String) : Except Fault Nat := do
  let field ← layout.bytes buffer path
  if field.length ≠ width then
    throw (.wrongWidth layout.name path field.length)
  return field.toNat

/-- The field as an unsigned byte. -/
def readUInt8 (layout : Layout) (buffer : Bytes) (path : String) : Except Fault UInt8 :=
  UInt8.ofNat <$> layout.word 1 buffer path

/-- The field as an unsigned 16-bit number. -/
def readUInt16 (layout : Layout) (buffer : Bytes) (path : String) : Except Fault UInt16 :=
  UInt16.ofNat <$> layout.word 2 buffer path

/-- The field as an unsigned 32-bit number. -/
def readUInt32 (layout : Layout) (buffer : Bytes) (path : String) : Except Fault UInt32 :=
  UInt32.ofNat <$> layout.word 4 buffer path

/-- The field as a signed 32-bit number. -/
def readInt32 (layout : Layout) (buffer : Bytes) (path : String) : Except Fault Int32 :=
  Int32.ofNat <$> layout.word 4 buffer path

/-- The field as an unsigned 64-bit number. -/
def readUInt64 (layout : Layout) (buffer : Bytes) (path : String) : Except Fault UInt64 :=
  UInt64.ofNat <$> layout.word 8 buffer path

/-- The field as an address. -/
def readAddress (layout : Layout) (buffer : Bytes) (path : String) : Except Fault UInt64 :=
  UInt64.ofNat <$> layout.word 8 buffer path

/-- The bytes in front of the first zero byte, if there is one. -/
def terminated? : Bytes → Option Bytes
  | [] => none
  | b :: rest => if b = 0 then some [] else (terminated? rest).map (b :: ·)

/-- The text in a field of characters, up to the first zero byte or through its full width. -/
def readCString (layout : Layout) (buffer : Bytes) (path : String) : Except Fault String := do
  let field ← layout.bytes buffer path
  match terminated? field with
  | some content => return Utf8.text content
  | none => return Utf8.text field

/-- The 16-bit units of a byte string in front of the first zero unit. -/
def unitsToZero : Bytes → List UInt16
  | low :: high :: rest =>
    let unit := UInt16.ofNat (low.toNat + 256 * high.toNat)
    if unit = 0 then [] else unit :: unitsToZero rest
  | _ => []

/-- The text in a field of 16-bit units, up to the first zero unit or through its full width. -/
def readWideString (layout : Layout) (buffer : Bytes) (path : String) : Except Fault String := do
  let field ← layout.bytes buffer path
  return Utf16.text (unitsToZero field)

end ProcessCensus.Record.Layout
