import ProcessCensus.Proofs.Bytes
import ProcessCensus.Proofs.Record.Declared
import ProcessCensus.Proofs.Record.Read

/-!
A field that is overwritten is read back as it was written, and no field apart from it changes. Which
fields are apart is a matter of their places alone, so both hold of every sound layout.
-/

namespace ProcessCensus.Record

/-- What the reads of each kind tell about a path. -/
structure Readouts where
  bytes : Except Fault Bytes
  uint8 : Except Fault UInt8
  uint16 : Except Fault UInt16
  uint32 : Except Fault UInt32
  int32 : Except Fault Int32
  uint64 : Except Fault UInt64
  address : Except Fault UInt64
  cString : Except Fault String
  wideString : Except Fault String

namespace Layout

/-- All reads of a path. -/
def readouts (layout : Layout) (buffer : Bytes) (path : String) : Readouts where
  bytes := layout.bytes buffer path
  uint8 := layout.readUInt8 buffer path
  uint16 := layout.readUInt16 buffer path
  uint32 := layout.readUInt32 buffer path
  int32 := layout.readInt32 buffer path
  uint64 := layout.readUInt64 buffer path
  address := layout.readAddress buffer path
  cString := layout.readCString buffer path
  wideString := layout.readWideString buffer path

variable {layout : Layout} {buffer other : Bytes} {path : String} {f : Field}

/-- Every kind of read starts from the bytes of the field. -/
theorem readouts_congr (hBytes : layout.bytes buffer path = layout.bytes other path) :
    layout.readouts buffer path = layout.readouts other path := by
  simp only [readouts, readUInt8, readUInt16, readUInt32, readInt32, readUInt64, readAddress,
    readCString, readWideString, word, hBytes]

/-- What lies beyond the record is not looked at. -/
theorem bytes_eq_of_take_eq (hSound : layout.Sound) (hBuffer : layout.size ≤ buffer.length)
    (hOther : layout.size ≤ other.length)
    (hRecord : buffer.take layout.size = other.take layout.size) (path : String) :
    layout.bytes buffer path = layout.bytes other path := by
  cases hField : layout.field path with
  | error fault =>
      rw [bytes, bytes, if_neg (Nat.not_lt.mpr hBuffer), if_neg (Nat.not_lt.mpr hOther), hField]
      rfl
  | ok field =>
      have hInside := hSound.inside field (mem_of_field_eq_ok hField).1
      rw [bytes_eq_ok hField hBuffer, bytes_eq_ok hField hOther,
        ← Bytes.slice_take buffer hInside, ← Bytes.slice_take other hInside, hRecord]

/-- What is written over a field is what its path leads to afterwards. -/
theorem bytes_overwrite (hSound : layout.Sound) (hBuffer : layout.size ≤ buffer.length)
    (hField : f ∈ layout.fields) {value : Bytes} (hValue : value.length = f.size) :
    layout.bytes (buffer.overwrite f.offset value) f.path = .ok value := by
  have hInside := hSound.inside f hField
  rw [bytes_eq_ok (hSound.field_path hField) (by rwa [Bytes.length_overwrite]), ← hValue,
    Bytes.slice_overwrite (by omega)]

/-- What is written over a field changes nothing that is not nested with it. -/
theorem bytes_overwrite_of_not_nested (hSound : layout.Sound) (hField : f ∈ layout.fields)
    {value : Bytes} (hValue : value.length = f.size) (hApart : ¬Nested f.path path) :
    layout.bytes (buffer.overwrite f.offset value) path = layout.bytes buffer path := by
  rw [bytes, bytes, Bytes.length_overwrite]
  cases hOther : layout.field path with
  | error fault => rfl
  | ok g =>
      obtain ⟨hMem, rfl⟩ := mem_of_field_eq_ok hOther
      -- Of the ways in which two fields can lie, only the last does not nest their paths.
      have hDisjoint : f.Disjoint g := by
        rcases hSound.apart f hField g hMem with rfl | hIn | hOut | hDisjoint
        · exact absurd (.inl rfl) hApart
        · exact absurd (.inr (.inl hIn.below)) hApart
        · exact absurd (.inr (.inr hOut.below)) hApart
        · exact hDisjoint
      have hSlice : ((buffer.overwrite f.offset value).drop g.offset).take g.size =
          (buffer.drop g.offset).take g.size :=
        Bytes.slice_overwrite_of_apart (by rw [hValue]; exact hDisjoint.symm)
      simp only [bind, Except.bind, hSlice]

/-- Every number of a type, written over the field in so many bytes, is what the read of that type
tells. -/
def TellsBack {α : Type} (layout : Layout) (buffer : Bytes) (f : Field) (width : Nat)
    (toNat : α → Nat) (read : Layout → Bytes → String → Except Fault α) : Prop :=
  f.size = width → ∀ value : α,
    read layout (buffer.overwrite f.offset (.ofNat width (toNat value))) f.path = .ok value

theorem tellsBack_of_inverse {α : Type} {width : Nat} {toNat : α → Nat} (ofNat : Nat → α)
    (hBound : ∀ value, toNat value < 256 ^ width) (hInverse : ∀ value, ofNat (toNat value) = value)
    (hSound : layout.Sound) (hBuffer : layout.size ≤ buffer.length) (hField : f ∈ layout.fields) :
    layout.TellsBack buffer f width toNat
      fun layout buffer path => ofNat <$> layout.word width buffer path := by
  intro hWidth value
  have hLength : (Bytes.ofNat width (toNat value)).length = f.size := by
    rw [Bytes.length_ofNat, hWidth]
  have hWord : layout.word width (buffer.overwrite f.offset (.ofNat width (toNat value))) f.path =
      .ok (toNat value) := by
    rw [word, bytes_overwrite hSound hBuffer hField hLength]
    simp only [bind, Except.bind, Bytes.length_ofNat, ne_eq, not_true_eq_false, if_false]
    rw [Bytes.toNat_ofNat (hBound value)]
    rfl
  change ofNat <$> layout.word width _ f.path = .ok value
  rw [hWord]
  exact congrArg Except.ok (hInverse value)

theorem int32_ofNat_toNat (value : Int32) : Int32.ofNat value.toUInt32.toNat = value := by
  refine Int32.toBitVec_inj.mp ?_
  rw [Int32.toBitVec_ofNat']
  change BitVec.ofNat 32 value.toBitVec.toNat = value.toBitVec
  rw [BitVec.ofNat_toNat, BitVec.setWidth_eq]

/-- A field that keeps what is written over it, as bytes and as every number of its width, while all
reads apart from it stay as they were. -/
structure Keeps (layout : Layout) (buffer : Bytes) (f : Field) : Prop where
  bytes : ∀ value : Bytes, value.length = f.size →
    layout.bytes (buffer.overwrite f.offset value) f.path = .ok value
  uint8 : layout.TellsBack buffer f 1 UInt8.toNat readUInt8
  uint16 : layout.TellsBack buffer f 2 UInt16.toNat readUInt16
  uint32 : layout.TellsBack buffer f 4 UInt32.toNat readUInt32
  int32 : layout.TellsBack buffer f 4 (fun value : Int32 => value.toUInt32.toNat) readInt32
  uint64 : layout.TellsBack buffer f 8 UInt64.toNat readUInt64
  address : layout.TellsBack buffer f 8 UInt64.toNat readAddress
  elsewhere : ∀ value : Bytes, value.length = f.size → ∀ path, ¬Nested f.path path →
    layout.readouts (buffer.overwrite f.offset value) path = layout.readouts buffer path

theorem Sound.keeps (hSound : layout.Sound) (hBuffer : layout.size ≤ buffer.length)
    (hField : f ∈ layout.fields) : layout.Keeps buffer f where
  bytes _ hValue := bytes_overwrite hSound hBuffer hField hValue
  uint8 :=
    tellsBack_of_inverse UInt8.ofNat UInt8.toNat_lt (fun _ => UInt8.ofNat_toNat)
      hSound hBuffer hField
  uint16 :=
    tellsBack_of_inverse UInt16.ofNat UInt16.toNat_lt (fun _ => UInt16.ofNat_toNat)
      hSound hBuffer hField
  uint32 :=
    tellsBack_of_inverse UInt32.ofNat UInt32.toNat_lt (fun _ => UInt32.ofNat_toNat)
      hSound hBuffer hField
  int32 :=
    tellsBack_of_inverse Int32.ofNat (fun value => value.toUInt32.toNat_lt) int32_ofNat_toNat
      hSound hBuffer hField
  uint64 :=
    tellsBack_of_inverse UInt64.ofNat UInt64.toNat_lt (fun _ => UInt64.ofNat_toNat)
      hSound hBuffer hField
  address :=
    tellsBack_of_inverse UInt64.ofNat UInt64.toNat_lt (fun _ => UInt64.ofNat_toNat)
      hSound hBuffer hField
  elsewhere _ hValue _ hApart :=
    readouts_congr (bytes_overwrite_of_not_nested hSound hField hValue hApart)

end Layout

/-- In each declared record the fields lie inside it and overlap only where one is a part of the other.
So what is written over a field is read back, nothing that is not nested with the field changes, and
nothing beyond the record is ever read. -/
theorem fields_keep_what_is_written {layout : Layout} (hDeclared : layout ∈ declared) :
    layout.Sound ∧
      (∀ buffer : Bytes, layout.size ≤ buffer.length →
        ∀ f ∈ layout.fields, layout.Keeps buffer f) ∧
      ∀ buffer other : Bytes, layout.size ≤ buffer.length → layout.size ≤ other.length →
        buffer.take layout.size = other.take layout.size →
          ∀ path, layout.readouts buffer path = layout.readouts other path := by
  have hSound := sound_of_mem_declared hDeclared
  refine ⟨hSound, fun buffer hBuffer f hField => hSound.keeps hBuffer hField, ?_⟩
  intro buffer other hBuffer hOther hRecord path
  exact Layout.readouts_congr (Layout.bytes_eq_of_take_eq hSound hBuffer hOther hRecord path)

/-- The number of the root directory, three records deep, in a buffer longer than the record. -/
theorem root_directory_keeps_its_number :
    processPaths ∈ declared ∧
      processPaths.readUInt64
          (Bytes.overwrite (List.replicate 2400 7) 1184 (.ofNat 8 (9649 : UInt64).toNat))
          "pvi_rdir.vip_vi.vi_stat.vst_ino" = .ok 9649 ∧
      processPaths.readUInt64
          (Bytes.overwrite (List.replicate 2400 7) 1184 (.ofNat 8 (9649 : UInt64).toNat))
          "pvi_cdir.vip_vi.vi_stat.vst_ino" =
        processPaths.readUInt64 (List.replicate 2400 7) "pvi_cdir.vip_vi.vi_stat.vst_ino" := by
  have hDeclared : processPaths ∈ declared := by
    simp only [declared, List.mem_cons, true_or, or_true]
  have hSize : processPaths.size ≤ (List.replicate 2400 (7 : UInt8)).length := by
    rw [List.length_replicate]
    decide +kernel
  have hField : ⟨"pvi_rdir.vip_vi.vi_stat.vst_ino", 1184, 8⟩ ∈ processPaths.fields := by
    decide +kernel
  have hApart : ¬Nested "pvi_rdir.vip_vi.vi_stat.vst_ino" "pvi_cdir.vip_vi.vi_stat.vst_ino" :=
    fun hNested => absurd hNested.firstName_eq (by decide)
  have hKeeps := (fields_keep_what_is_written hDeclared).2.1 _ hSize _ hField
  have hElsewhere := hKeeps.elsewhere (.ofNat 8 (9649 : UInt64).toNat) (Bytes.length_ofNat 8 _) _
    hApart
  exact ⟨hDeclared, hKeeps.uint64 rfl 9649, (Readouts.mk.inj hElsewhere).2.2.2.2.2.1⟩

end ProcessCensus.Record
