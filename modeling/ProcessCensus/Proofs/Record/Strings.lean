import ProcessCensus.Proofs.Record.Declared
import ProcessCensus.Proofs.Record.Read
import ProcessCensus.Proofs.Text.Utf16
import ProcessCensus.Record.Windows

/-!
Strings that stand in the records themselves. A string is read back from a field that it fills or in
which a terminator stands behind it, whatever else is in the field. From any other field, too, nothing
else is read than from the same bytes outside of a record.
-/

namespace ProcessCensus

namespace Text

/-- What stands in front of the first mark does not hang on what stands behind it. -/
theorem takeWhile_ne_append {α : Type} [BEq α] [LawfulBEq α] {mark : α} {content rest : List α}
    (hContent : mark ∉ content) (hRest : ∀ x, rest.head? = some x → x = mark) :
    (content ++ rest).takeWhile (· != mark) = content := by
  have hAll : ∀ x ∈ content, (x != mark) = true := fun x hMem =>
    bne_iff_ne.mpr fun hMark => hContent (hMark ▸ hMem)
  rw [List.takeWhile_append_of_pos hAll]
  cases rest with
  | nil => rw [List.takeWhile_nil, List.append_nil]
  | cons x rest =>
      obtain rfl := hRest x rfl
      rw [List.takeWhile_cons, bne_self_eq_false, if_neg Bool.false_ne_true, List.append_nil]

end Text

namespace Record

open Text

/-- The content stands at the start of the field. If there is room for another unit of so many bytes
behind it, the next unit is zero. Whatever stands behind that one is left open. -/
def Inline (unit : Nat) (content field : Bytes) : Prop :=
  ∃ rest, field = content ++ rest ∧ (rest.length < unit ∨ List.replicate unit 0 <+: rest)

theorem Inline.of_full {unit : Nat} (hUnit : 0 < unit) (content : Bytes) :
    Inline unit content content :=
  ⟨[], (List.append_nil content).symm, .inl hUnit⟩

theorem Inline.of_terminated {unit : Nat} {content field : Bytes}
    (hBegins : content ++ .replicate unit 0 <+: field) : Inline unit content field := by
  obtain ⟨others, rfl⟩ := hBegins
  exact ⟨_, List.append_assoc _ _ _, .inr (List.prefix_append _ _)⟩

section Decoding

variable {text : String} {field : Bytes}

theorem cString_of_inline (hText : '\x00' ∉ text.toList) (hInline : Inline 1 (Utf8.bytes text) field) :
    cString field = text := by
  obtain ⟨rest, rfl, hRest⟩ := hInline
  rw [cString_eq, takeWhile_ne_append (mt Utf8.zero_mem_bytes.mp hText), Utf8.text_bytes]
  intro b hHead
  rcases hRest with hFull | ⟨others, rfl⟩
  · rw [List.length_eq_zero_iff.mp (Nat.lt_one_iff.mp hFull)] at hHead
    cases hHead
  · exact (Option.some.inj hHead).symm

theorem wideString_of_inline (hText : '\x00' ∉ text.toList)
    (hInline : Inline 2 (Bytes.ofUnits (Utf16.encode text.toList)) field) :
    wideString (Bytes.units field) = text := by
  obtain ⟨rest, rfl, hRest⟩ := hInline
  rw [Bytes.units_ofUnits_append, wideString_eq,
    takeWhile_ne_append (mt Utf16.zero_mem_encode.mp hText), Utf16.text_encode]
  intro unit hHead
  rcases hRest with hFull | ⟨others, rfl⟩
  · have hNone : Bytes.units rest = [] := by
      rw [← List.length_eq_zero_iff, Bytes.length_units, Nat.div_eq_of_lt hFull]
    rw [hNone] at hHead
    cases hHead
  · exact (Option.some.inj hHead).symm

end Decoding

/-- The strings in the fields of a layout are read as what was put there, and in any case as the bytes
would be read elsewhere. -/
structure Layout.ReadsStrings (layout : Layout) : Prop where
  narrow {f : Field} {buffer : Bytes} {text : String} : f ∈ layout.fields →
    layout.size ≤ buffer.length → '\x00' ∉ text.toList →
    Inline 1 (Utf8.bytes text) ((buffer.drop f.offset).take f.size) →
    layout.readCString buffer f.path = .ok text
  wide {f : Field} {buffer : Bytes} {text : String} : f ∈ layout.fields →
    layout.size ≤ buffer.length → '\x00' ∉ text.toList →
    Inline 2 (Bytes.ofUnits (Utf16.encode text.toList)) ((buffer.drop f.offset).take f.size) →
    layout.readWideString buffer f.path = .ok text
  narrow_agrees (buffer : Bytes) (path : String) :
    layout.readCString buffer path = cString <$> layout.bytes buffer path
  wide_agrees (buffer : Bytes) (path : String) :
    layout.readWideString buffer path =
      (fun field => wideString (Bytes.units field)) <$> layout.bytes buffer path

theorem strings_read_back {layout : Layout} (hDeclared : layout ∈ declared) : layout.ReadsStrings where
  narrow hField hBuffer hText hInline := by
    have hPath := (sound_of_mem_declared hDeclared).field_path hField
    rw [Layout.readCString_eq, Layout.bytes_eq_ok hPath hBuffer]
    exact congrArg Except.ok (cString_of_inline hText hInline)
  wide hField hBuffer hText hInline := by
    have hPath := (sound_of_mem_declared hDeclared).field_path hField
    rw [Layout.readWideString_eq, Layout.bytes_eq_ok hPath hBuffer]
    exact congrArg Except.ok (wideString_of_inline hText hInline)
  narrow_agrees := layout.readCString_eq
  wide_agrees := layout.readWideString_eq

/-- A name of sixteen bytes in six characters. -/
def wholeName : String := "\u65e5\u672c\u8a9e\u30c6\u30b9x"

/-- A name that begins with a surrogate pair. -/
def pairedName : String := .ofList [.ofNat 0x1d4b3, 'a', 'b']

/-- The record of a process with a name that takes all the bytes there are. -/
def wholeRecord : Bytes :=
  Bytes.overwrite (.replicate 232 0x41) 48 (Utf8.bytes wholeName)

/-- A row with a name that takes four units, and with other units behind its terminator. -/
def pairedRow : Bytes :=
  Bytes.overwrite (.replicate 568 0x41) 44 (Bytes.ofUnits (Utf16.encode pairedName.toList ++ [0]))

theorem strings_read_back_whole :
    processTaskInfo ∈ declared ∧ processRow ∈ declared ∧
      processTaskInfo.readCString wholeRecord "pbsd.pbi_comm" = .ok wholeName ∧
      processRow.readWideString pairedRow "szExeFile" = .ok pairedName := by
  have hTask : processTaskInfo ∈ declared := by simp [declared]
  have hRow : processRow ∈ declared := by simp [declared]
  have hCommand : Field.mk "pbsd.pbi_comm" 48 16 ∈ processTaskInfo.fields := by decide +kernel
  have hFile : Field.mk "szExeFile" 44 520 ∈ processRow.fields := by decide +kernel
  have hWhole : Inline 1 (Utf8.bytes wholeName) ((wholeRecord.drop 48).take 16) := by
    have hFull : (wholeRecord.drop 48).take 16 = Utf8.bytes wholeName := by decide +kernel
    exact hFull ▸ .of_full Nat.one_pos _
  have hPaired : Inline 2 (Bytes.ofUnits (Utf16.encode pairedName.toList))
      ((pairedRow.drop 44).take 520) := .of_terminated (by decide +kernel)
  have hCommandSize : processTaskInfo.size ≤ wholeRecord.length := by decide +kernel
  have hFileSize : processRow.size ≤ pairedRow.length := by decide +kernel
  have hNarrow := (strings_read_back hTask).narrow hCommand hCommandSize (by decide +kernel) hWhole
  have hWide := (strings_read_back hRow).wide hFile hFileSize (by decide +kernel) hPaired
  exact ⟨hTask, hRow, hNarrow, hWide⟩

end Record

end ProcessCensus
