import ProcessCensus.Proofs.Bytes
import ProcessCensus.Proofs.Record.Declared
import ProcessCensus.Proofs.Record.Read

/-!
Reading a field of a nested record is reading it in the bytes of the nested record. A path is looked up
by its whole text, so this rests on where the first field of that path stands.
-/

namespace ProcessCensus.Record

namespace Layout

variable {outer inner : Layout} {head path : String} {offset : Nat} {f : Field}

/-- The path `head` leads to a record with the layout `inner`: what is read under the path is read in
the bytes that the path leads to. -/
def ReadsThrough (outer : Layout) (head : String) (inner : Layout) : Prop :=
  ∀ buffer : Bytes, outer.size ≤ buffer.length →
    ∃ part, outer.bytes buffer head = .ok part ∧ part.length = inner.size ∧
      ∀ path f, inner.field path = .ok f →
        ∃ value, inner.bytes part path = .ok value ∧
          outer.bytes buffer (head ++ "." ++ path) = .ok value

/-- It is enough that the fields of the nested record are found at their places. -/
theorem readsThrough_of_field
    (hHead : outer.field head = .ok ⟨head, offset, inner.size⟩)
    (hInside : offset + inner.size ≤ outer.size)
    (hInner : ∀ f ∈ inner.fields, f.offset + f.size ≤ inner.size)
    (hNested : ∀ path f, inner.field path = .ok f →
      outer.field (head ++ "." ++ path) = .ok (f.under head offset)) :
    outer.ReadsThrough head inner := by
  intro buffer hBuffer
  have hPart : ((buffer.drop offset).take inner.size).length = inner.size := by
    rw [List.length_take, List.length_drop]
    omega
  refine ⟨_, bytes_eq_ok hHead hBuffer, hPart, fun path f hField => ?_⟩
  refine ⟨_, bytes_eq_ok hField (Nat.le_of_eq hPart.symm), ?_⟩
  rw [bytes_eq_ok (hNested path f hField) hBuffer,
    Bytes.slice_slice buffer (hInner f (mem_of_field_eq_ok hField).1)]
  rfl

/-- The layout declares a record's bytes as a field inside itself, and nothing under that field yet. -/
structure MakesRoom (outer : Layout) (head : String) (offset : Nat) (inner : Layout) : Prop where
  declared : outer.field head = .ok ⟨head, offset, inner.size⟩
  inside : offset + inner.size ≤ outer.size
  free : ∀ f ∈ outer.fields, ¬Below f.path head

theorem fields_embed (outer : Layout) (head : String) (offset : Nat) (inner : Layout) :
    (outer.embed head offset inner).fields =
      outer.fields ++ inner.fields.map (·.under head offset) :=
  rfl

/-- What is found in a layout is still found there once a record is embedded. -/
theorem field_embed_of_eq_ok (hField : outer.field path = .ok f) (head : String) (offset : Nat)
    (inner : Layout) : (outer.embed head offset inner).field path = .ok f := by
  rw [field_eq_ok_iff, fields_embed, List.find?_append, field_eq_ok_iff.mp hField, Option.some_or]

/-- Nothing in front of the embedded fields has their paths. -/
theorem MakesRoom.field_embed (hRoom : outer.MakesRoom head offset inner)
    (hField : inner.field path = .ok f) :
    (outer.embed head offset inner).field (head ++ "." ++ path) = .ok (f.under head offset) := by
  have hNone : outer.fields.find? (·.path == head ++ "." ++ path) = none := by
    refine List.find?_eq_none.mpr fun g hMem hPath => ?_
    exact hRoom.free g hMem ⟨path, beq_iff_eq.mp hPath⟩
  have hSame : ((fun g : Field => g.path == head ++ "." ++ path) ∘ (·.under head offset)) =
      fun g : Field => g.path == path := by
    funext g
    refine Bool.eq_iff_iff.mpr ?_
    rw [Function.comp_apply, beq_iff_eq, beq_iff_eq]
    exact ⟨under_inj, congrArg (head ++ "." ++ ·)⟩
  rw [field_eq_ok_iff, fields_embed, List.find?_append, hNone, Option.none_or, List.find?_map, hSame,
    field_eq_ok_iff.mp hField, Option.map_some]

/-- Embedding a record at a field of its size makes the field readable as that record. -/
theorem MakesRoom.readsThrough (hRoom : outer.MakesRoom head offset inner)
    (hInner : ∀ f ∈ inner.fields, f.offset + f.size ≤ inner.size) :
    (outer.embed head offset inner).ReadsThrough head inner :=
  readsThrough_of_field (field_embed_of_eq_ok hRoom.declared head offset inner) hRoom.inside hInner
    fun _ _ hField => hRoom.field_embed hField

/-- A member that is a record is readable as that record, whatever members stand around it. -/
theorem readsThrough_member {name : String} {members : List Member}
    (hSound : (ofMembers name members).Sound) (hInner : inner.Sound)
    (hMember : ⟨head, .record inner⟩ ∈ members) :
    (ofMembers name members).ReadsThrough head inner := by
  obtain ⟨offset, hPlaced⟩ := exists_mem_place hMember
  have hOwn : ⟨head, offset, inner.size⟩ ∈ (ofMembers name members).fields :=
    mem_fields_ofMembers.mpr ⟨_, hPlaced, .own⟩
  refine readsThrough_of_field (hSound.field_path hOwn) (hSound.inside _ hOwn) hInner.inside ?_
  intro path f hField
  obtain ⟨hMem, rfl⟩ := mem_of_field_eq_ok hField
  exact hSound.field_path (f := f.under head offset)
    (mem_fields_ofMembers.mpr ⟨_, hPlaced, .nested rfl hMem⟩)

theorem bytes_embed_of_eq_ok {buffer value : Bytes} (hBytes : outer.bytes buffer path = .ok value)
    (head : String) (offset : Nat) (inner : Layout) :
    (outer.embed head offset inner).bytes buffer path = .ok value := by
  by_cases hBuffer : outer.size ≤ buffer.length
  · cases hField : outer.field path with
    | error fault =>
        rw [bytes, if_neg (Nat.not_lt.mpr hBuffer), hField] at hBytes
        cases hBytes
    | ok f =>
        rw [bytes_eq_ok hField hBuffer] at hBytes
        exact (bytes_eq_ok (field_embed_of_eq_ok hField head offset inner) hBuffer).trans hBytes
  · rw [bytes, if_pos (Nat.not_le.mp hBuffer)] at hBytes
    cases hBytes

/-- A record that is embedded later does not come between. -/
theorem ReadsThrough.embed (hThrough : outer.ReadsThrough head inner) (other : String) (start : Nat)
    (further : Layout) : (outer.embed other start further).ReadsThrough head inner := by
  intro buffer hBuffer
  obtain ⟨part, hPart, hLength, hRead⟩ := hThrough buffer hBuffer
  refine ⟨part, bytes_embed_of_eq_ok hPart other start further, hLength, fun path f hField => ?_⟩
  obtain ⟨value, hInner, hOuter⟩ := hRead path f hField
  exact ⟨value, hInner, bytes_embed_of_eq_ok hOuter other start further⟩

end Layout

theorem processTaskInfo_readsThrough_processInfo :
    processTaskInfo.ReadsThrough "pbsd" processInfo :=
  Layout.readsThrough_member sound_processTaskInfo sound_processInfo List.mem_cons_self

theorem processTaskInfo_readsThrough_taskInfo : processTaskInfo.ReadsThrough "ptinfo" taskInfo :=
  Layout.readsThrough_member sound_processTaskInfo sound_taskInfo
    (List.mem_cons_of_mem _ List.mem_cons_self)

theorem processPaths_readsThrough_current : processPaths.ReadsThrough "pvi_cdir" vnodePath :=
  Layout.readsThrough_member sound_processPaths sound_vnodePath List.mem_cons_self

theorem processPaths_readsThrough_root : processPaths.ReadsThrough "pvi_rdir" vnodePath :=
  Layout.readsThrough_member sound_processPaths sound_vnodePath
    (List.mem_cons_of_mem _ List.mem_cons_self)

/-- Embedding a record where a layout makes room for it lets every path of the record be read there as
it is read in the record by itself, whatever is embedded later. So it is with the two parts of a
process and its task, and with both directories of a process: when the bytes of one are a copy of the
other's, they read the same at every depth. -/
theorem embedding_commutes_with_reading :
    (∀ (outer inner : Layout) (head : String) (offset : Nat), outer.MakesRoom head offset inner →
      (∀ f ∈ inner.fields, f.offset + f.size ≤ inner.size) →
        (outer.embed head offset inner).ReadsThrough head inner) ∧
      (∀ (outer inner further : Layout) (head other : String) (start : Nat),
        outer.ReadsThrough head inner →
          (outer.embed other start further).ReadsThrough head inner) ∧
      processTaskInfo.ReadsThrough "pbsd" processInfo ∧
      processTaskInfo.ReadsThrough "ptinfo" taskInfo ∧
      ∀ buffer copied : Bytes, processPaths.size ≤ buffer.length →
        processPaths.size ≤ copied.length →
        processPaths.bytes copied "pvi_cdir" = processPaths.bytes buffer "pvi_rdir" →
        ∀ path f, vnodePath.field path = .ok f →
          ∃ value, processPaths.bytes buffer ("pvi_rdir" ++ "." ++ path) = .ok value ∧
            processPaths.bytes copied ("pvi_cdir" ++ "." ++ path) = .ok value := by
  refine ⟨fun _ _ _ _ hRoom hInner => hRoom.readsThrough hInner,
    fun _ _ further _ other start hThrough => hThrough.embed other start further,
    processTaskInfo_readsThrough_processInfo, processTaskInfo_readsThrough_taskInfo, ?_⟩
  intro buffer copied hBuffer hCopied hCopy path f hField
  obtain ⟨root, hRoot, -, hReadRoot⟩ := processPaths_readsThrough_root buffer hBuffer
  obtain ⟨current, hCurrent, -, hReadCurrent⟩ := processPaths_readsThrough_current copied hCopied
  obtain rfl : current = root := Except.ok.inj (hCurrent.symm.trans (hCopy.trans hRoot))
  obtain ⟨value, hValue, hUnderRoot⟩ := hReadRoot path f hField
  obtain ⟨value', hValue', hUnderCurrent⟩ := hReadCurrent path f hField
  obtain rfl : value' = value := Except.ok.inj (hValue'.symm.trans hValue)
  exact ⟨value', hUnderRoot, hUnderCurrent⟩

/-- A record of two directories without their fields makes room for the second one. -/
theorem embedding_commutes_with_reading_directories :
    let outer : Layout :=
      ⟨"ProcVnodePathInfo", 2352, 8, [⟨"pvi_cdir", 0, 1176⟩, ⟨"pvi_rdir", 1176, 1176⟩]⟩
    outer.MakesRoom "pvi_rdir" 1176 vnodePath ∧
      (outer.embed "pvi_rdir" 1176 vnodePath).ReadsThrough "pvi_rdir" vnodePath := by
  intro outer
  have hRoom : outer.MakesRoom "pvi_rdir" 1176 vnodePath := by
    refine ⟨by decide +kernel, by decide +kernel, fun f hMem hBelow => ?_⟩
    have hNames : ∀ f ∈ outer.fields, f.path = "pvi_rdir" ∨ firstName f.path ≠ "pvi_rdir".toList := by
      decide
    rcases hNames f hMem with hSame | hName
    · exact hBelow.ne hSame
    · exact hName (Nested.firstName_eq (.inr (.inl hBelow)))
  exact ⟨hRoom, embedding_commutes_with_reading.1 _ _ _ _ hRoom sound_vnodePath.inside⟩

end ProcessCensus.Record
