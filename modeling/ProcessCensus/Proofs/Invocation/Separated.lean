import ProcessCensus.Proofs.Invocation.Encoding

/-!
Strings with a zero byte after each, read and written. Reading undoes writing, whether or not the
last zero byte is there, and where the bytes are those of a text, writing undoes reading. The one
list that is not read back is that of a single empty string.
-/

namespace ProcessCensus.Invocation

/-- The last string may lack its zero byte, if it is not empty. -/
theorem nulSeparated_dropLast {strings : List Bytes} (hStrings : ∀ s ∈ strings, 0 ∉ s)
    (hLast : ∀ s ∈ strings.getLast?, s ≠ []) :
    nulSeparated (terminate strings).dropLast = strings.map Text.Utf8.text := by
  rcases List.eq_nil_or_concat strings with rfl | ⟨first, last, rfl⟩
  · rfl
  · rw [List.concat_eq_append] at hStrings hLast ⊢
    have hFirst : ∀ s ∈ first, 0 ∉ s := fun s hMem => hStrings s (List.mem_append_left _ hMem)
    have hFree : 0 ∉ last := hStrings last (by simp)
    have hSome : last ≠ [] := hLast last (by simp)
    have hOpen : (terminate first ++ last).getLast? ≠ some 0 := by
      rw [List.getLast?_append_of_ne_nil _ hSome]
      exact fun hZero => hFree (List.mem_of_getLast? hZero)
    rw [terminate_concat, List.dropLast_concat, nulSeparated, if_neg hOpen,
      parts_terminate_append hFirst, Text.parts_of_notMem hFree]
    simp [hSome]

/-- Zero bytes after the pieces of a text are zero characters in it. -/
theorem terminate_map_encode (pieces : List (List Char)) :
    terminate (pieces.map Text.Utf8.encode) =
      Text.Utf8.encode (pieces.flatMap (· ++ ['\x00'])) := by
  have hZero : Text.Utf8.encodeChar '\x00' = [0] := rfl
  simp [terminate, Text.Utf8.encode, List.flatMap_map, List.flatMap_assoc, hZero]

/-- A text that ends in a zero byte ends in a zero character. -/
theorem exists_encode_concat {text : List Char}
    (hLast : (Text.Utf8.encode text).getLast? = some 0) :
    ∃ front, text = front ++ ['\x00'] := by
  rcases List.eq_nil_or_concat text with rfl | ⟨front, c, rfl⟩
  · cases hLast
  · refine ⟨front, ?_⟩
    have hChar : Text.Utf8.encode [c] = Text.Utf8.encodeChar c := by simp [Text.Utf8.encode]
    rw [List.concat_eq_append, Text.Utf8.encode_append, hChar,
      List.getLast?_append_of_ne_nil _ (Text.Utf8.encodeChar_ne_nil c)] at hLast
    rw [List.concat_eq_append, Text.Utf8.zero_mem_encodeChar.mp (List.mem_of_getLast? hLast)]

/-- Well-formed bytes with a zero byte at their end are strings with a zero byte after each. -/
theorem exists_terminate_eq {content : Bytes} (hContent : content.toByteArray.IsValidUTF8)
    (hLast : content.getLast? = some 0) :
    ∃ strings : List String, (∀ s ∈ strings, '\x00' ∉ s.toList) ∧
      terminate (strings.map Text.Utf8.bytes) = content := by
  obtain ⟨text, rfl⟩ := Text.Utf8.isValidUTF8_iff.mp hContent
  obtain ⟨front, rfl⟩ := exists_encode_concat hLast
  refine ⟨(Text.parts '\x00' front).map String.ofList, ?_, ?_⟩
  · rw [List.forall_mem_map]
    intro part hPart
    rw [String.toList_ofList]
    exact Text.notMem_of_mem_parts hPart
  · have hBytes : Text.Utf8.bytes ∘ String.ofList = Text.Utf8.encode := by
      funext part
      simp [Text.Utf8.bytes]
    rw [List.map_map, hBytes, terminate_map_encode, Text.flatMap_parts]

theorem map_text_map_bytes (strings : List String) :
    (strings.map Text.Utf8.bytes).map Text.Utf8.text = strings := by
  simp [Function.comp_def]

variable {strings : List String}

theorem nulSeparated_terminate_bytes (hStrings : ∀ s ∈ strings, '\x00' ∉ s.toList)
    (hEmpty : strings ≠ [""]) :
    nulSeparated (terminate (strings.map Text.Utf8.bytes)) = strings := by
  have hBytes : strings.map Text.Utf8.bytes ≠ [[]] := by
    intro hMap
    obtain ⟨s, rfl, hNil⟩ := List.map_eq_singleton_iff.mp hMap
    exact hEmpty (by rw [Text.Utf8.bytes_eq_nil.mp hNil])
  rw [nulSeparated_terminate (zero_notMem_of_mem_map_bytes hStrings) hBytes, map_text_map_bytes]

theorem nulSeparated_dropLast_bytes (hStrings : ∀ s ∈ strings, '\x00' ∉ s.toList)
    (hLast : ∀ s ∈ strings.getLast?, s ≠ "") :
    nulSeparated (terminate (strings.map Text.Utf8.bytes)).dropLast = strings := by
  have hBytes : ∀ s ∈ (strings.map Text.Utf8.bytes).getLast?, s ≠ [] := by
    rw [List.getLast?_map]
    intro s hMem hNil
    obtain ⟨last, hString, rfl⟩ := Option.map_eq_some_iff.mp hMem
    exact hLast last hString (Text.Utf8.bytes_eq_nil.mp hNil)
  rw [nulSeparated_dropLast (zero_notMem_of_mem_map_bytes hStrings) hBytes, map_text_map_bytes]

/-- Reading strings undoes writing them, but for a single empty string: with all of the zero bytes,
and without the last one if the last string is not empty. The other way round, what is read from
well-formed bytes that end in a zero byte gives these bytes again, if there are two of them at
least. -/
theorem nulSeparated_inverse :
    (∀ strings : List String, (∀ s ∈ strings, '\x00' ∉ s.toList) → strings ≠ [""] →
      nulSeparated (terminate (strings.map Text.Utf8.bytes)) = strings ∧
        ((∀ last ∈ strings.getLast?, last ≠ "") →
          nulSeparated (terminate (strings.map Text.Utf8.bytes)).dropLast = strings)) ∧
    ∀ content : Bytes, content.toByteArray.IsValidUTF8 → 2 ≤ content.length →
      content.getLast? = some 0 →
      terminate ((nulSeparated content).map Text.Utf8.bytes) = content := by
  refine ⟨fun strings hStrings hEmpty =>
    ⟨nulSeparated_terminate_bytes hStrings hEmpty, nulSeparated_dropLast_bytes hStrings⟩, ?_⟩
  intro content hContent hLength hLast
  obtain ⟨strings, hStrings, rfl⟩ := exists_terminate_eq hContent hLast
  -- A single empty string is written as one byte.
  have hEmpty : strings ≠ [""] := by
    rintro rfl
    exact absurd hLength (by decide)
  rw [nulSeparated_terminate_bytes hStrings hEmpty]

/-- Two zero bytes are two empty strings, a single one is none. -/
example : nulSeparated [0, 0] = ["", ""] ∧ nulSeparated [0] = [] := by decide

end ProcessCensus.Invocation
