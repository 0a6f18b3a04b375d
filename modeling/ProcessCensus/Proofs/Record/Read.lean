import ProcessCensus.Proofs.Bytes
import ProcessCensus.Record.Read

/-!
A field that lies within its record is read from every buffer that holds the record, and from its own
place there.
-/

namespace ProcessCensus.Bytes

/-- The little-endian number in `width` bytes from `offset` on. -/
def wordAt (bytes : Bytes) (offset width : Nat) : Nat :=
  toNat ((bytes.drop offset).take width)

/-- The little-endian number in the four bytes from `offset` on, in two's complement. -/
def signedAt (bytes : Bytes) (offset : Nat) : Int :=
  Int.bmod (bytes.wordAt offset 4) (2 ^ 32)

theorem wordAt_lt (bytes : Bytes) (offset width : Nat) : bytes.wordAt offset width < 256 ^ width :=
  toNat_take_lt _ width

end ProcessCensus.Bytes

namespace ProcessCensus.Text

theorem takeWhile_ne {α : Type} [BEq α] (mark : α) (xs : List α) :
    xs.takeWhile (· != mark) = xs.take (xs.findIdx (· == mark)) := by
  have hMark : (fun x => !(x != mark)) = (· == mark) := funext fun _ => Bool.not_not _
  rw [List.takeWhile_eq_take_findIdx_not, hMark]

theorem cString_eq (bytes : Bytes) : cString bytes = Utf8.text (bytes.takeWhile (· != 0)) := by
  rw [cString, takeWhile_ne]

theorem wideString_eq (units : List UInt16) :
    wideString units = Utf16.text (units.takeWhile (· != 0)) := by
  rw [wideString, takeWhile_ne]

end ProcessCensus.Text

namespace ProcessCensus.Record

/-- Reading goes through if each of its parts does. -/
theorem exists_bind_ok {α β : Type} {first : Except Fault α} {next : α → Except Fault β}
    (hFirst : ∃ value, first = .ok value) (hNext : ∀ value, ∃ last, next value = .ok last) :
    ∃ last, first >>= next = .ok last := by
  obtain ⟨value, rfl⟩ := hFirst
  exact hNext value

namespace Layout

variable {layout : Layout} {buffer : Bytes} {path : String} {field : Field} {width : Nat}

theorem bytes_eq_ok (hField : layout.field path = .ok field)
    (hBuffer : layout.size ≤ buffer.length) :
    layout.bytes buffer path = .ok ((buffer.drop field.offset).take field.size) := by
  rw [bytes, if_neg (Nat.not_lt.mpr hBuffer), hField]
  rfl

theorem word_eq_ok (hField : layout.field path = .ok field)
    (hFits : field.offset + field.size ≤ layout.size) (hBuffer : layout.size ≤ buffer.length) :
    layout.word field.size buffer path =
      .ok (Bytes.toNat ((buffer.drop field.offset).take field.size)) := by
  have hLength : ((buffer.drop field.offset).take field.size).length = field.size := by
    rw [List.length_take, List.length_drop]
    omega
  rw [word, bytes_eq_ok hField hBuffer]
  simp only [bind, Except.bind, hLength, ne_eq, not_true_eq_false, if_false]
  rfl

/-- The layout has a field of this width, and the field lies within the record. -/
def Holds (layout : Layout) (path : String) (width : Nat) : Prop :=
  (layout.field path).toOption.any
    (fun field => field.size == width && field.offset + width ≤ layout.size) = true

instance (layout : Layout) (path : String) (width : Nat) : Decidable (layout.Holds path width) :=
  inferInstanceAs (Decidable (_ = true))

theorem Holds.exists_field (hHolds : layout.Holds path width) :
    ∃ field, layout.field path = .ok field ∧ field.size = width ∧
      field.offset + field.size ≤ layout.size := by
  rw [Holds] at hHolds
  cases hField : layout.field path with
  | error fault =>
      rw [hField] at hHolds
      cases hHolds
  | ok field =>
      rw [hField] at hHolds
      simp only [Except.toOption, Option.any_some, Bool.and_eq_true, beq_iff_eq,
        decide_eq_true_eq] at hHolds
      exact ⟨field, rfl, hHolds.1, hHolds.1 ▸ hHolds.2⟩

theorem Holds.bytes_eq_ok (hHolds : layout.Holds path width)
    (hBuffer : layout.size ≤ buffer.length) : ∃ value, layout.bytes buffer path = .ok value := by
  obtain ⟨field, hField, -⟩ := hHolds.exists_field
  exact ⟨_, Layout.bytes_eq_ok hField hBuffer⟩

theorem Holds.word_eq_ok (hHolds : layout.Holds path width)
    (hBuffer : layout.size ≤ buffer.length) : ∃ value, layout.word width buffer path = .ok value := by
  obtain ⟨field, hField, rfl, hFits⟩ := hHolds.exists_field
  exact ⟨_, Layout.word_eq_ok hField hFits hBuffer⟩

theorem number_eq_ok {α : Type} {f : Nat → α} (hBuffer : layout.size ≤ buffer.length)
    (hHolds : layout.Holds path width) :
    ∃ value, f <$> layout.word width buffer path = .ok value := by
  obtain ⟨value, hValue⟩ := hHolds.word_eq_ok hBuffer
  exact ⟨f value, congrArg (f <$> ·) hValue⟩

/-- The layout has a field at this place, and the field lies within the record. -/
def Places (layout : Layout) (path : String) (offset width : Nat) : Prop :=
  (layout.field path).toOption = some ⟨path, offset, width⟩ ∧ offset + width ≤ layout.size

instance (layout : Layout) (path : String) (offset width : Nat) :
    Decidable (layout.Places path offset width) :=
  inferInstanceAs (Decidable (_ ∧ _))

variable {offset : Nat}

theorem Places.field_eq_ok (hPlaces : layout.Places path offset width) :
    layout.field path = .ok ⟨path, offset, width⟩ := by
  have hField := hPlaces.1
  cases hRead : layout.field path with
  | error fault =>
      rw [hRead] at hField
      cases hField
  | ok field =>
      rw [hRead] at hField
      exact congrArg Except.ok (Option.some.inj hField)

theorem Places.bytes_eq_ok (hPlaces : layout.Places path offset width)
    (hBuffer : layout.size ≤ buffer.length) :
    layout.bytes buffer path = .ok ((buffer.drop offset).take width) :=
  Layout.bytes_eq_ok hPlaces.field_eq_ok hBuffer

/-- A number is read from its place. -/
theorem Places.number_eq_ok {α : Type} (hPlaces : layout.Places path offset width)
    (hBuffer : layout.size ≤ buffer.length) (f : Nat → α) :
    f <$> layout.word width buffer path = .ok (f (buffer.wordAt offset width)) :=
  congrArg (f <$> ·) (Layout.word_eq_ok hPlaces.field_eq_ok hPlaces.2 hBuffer)

/-- The bytes in front of the first zero byte, and all of them if there is none. -/
theorem getD_terminated? (field : Bytes) :
    (terminated? field).getD field = field.takeWhile (· != 0) := by
  induction field with
  | nil => rfl
  | cons b rest ih =>
      rw [terminated?, List.takeWhile_cons]
      by_cases hZero : b = 0
      case pos => simp [hZero]
      case neg =>
        rw [if_neg hZero, if_pos (bne_iff_ne.mpr hZero), ← ih]
        cases terminated? rest <;> rfl

theorem unitsToZero_eq (field : Bytes) :
    unitsToZero field = (Bytes.units field).takeWhile (· != 0) := by
  induction field using unitsToZero.induct with
  | case1 low high rest unit hZero =>
      change (if unit = 0 then [] else _) = (unit :: Bytes.units rest).takeWhile _
      rw [if_pos hZero, hZero]
      rfl
  | case2 low high rest unit hZero ih =>
      change (if unit = 0 then [] else unit :: unitsToZero rest) = (unit :: Bytes.units rest).takeWhile _
      rw [if_neg hZero, List.takeWhile_cons, if_pos (bne_iff_ne.mpr hZero), ih]
  | case3 field hShort => rw [unitsToZero.eq_2 field hShort, Bytes.units.eq_2 field hShort]; rfl

/-- A field of characters is read as any other text that a zero byte ends. -/
theorem readCString_eq (layout : Layout) (buffer : Bytes) (path : String) :
    layout.readCString buffer path = Text.cString <$> layout.bytes buffer path := by
  rw [readCString]
  cases layout.bytes buffer path with
  | error fault => rfl
  | ok field =>
      change _ = Except.ok (Text.cString field)
      rw [Text.cString_eq, ← getD_terminated?]
      simp only [bind, Except.bind]
      cases terminated? field <;> rfl

/-- A field of 16-bit units is read as any other text that a zero unit ends. -/
theorem readWideString_eq (layout : Layout) (buffer : Bytes) (path : String) :
    layout.readWideString buffer path =
      (fun field => Text.wideString (Bytes.units field)) <$> layout.bytes buffer path := by
  rw [readWideString]
  cases layout.bytes buffer path with
  | error fault => rfl
  | ok field =>
      change Except.ok (Text.Utf16.text (unitsToZero field)) = .ok (Text.wideString (Bytes.units field))
      rw [Text.wideString_eq, unitsToZero_eq]

end Layout

end ProcessCensus.Record
