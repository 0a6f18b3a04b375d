import ProcessCensus.Proofs.Bytes
import ProcessCensus.Proofs.Record.Read
import ProcessCensus.Proofs.Run
import ProcessCensus.Proofs.Sizing.Attempts
import ProcessCensus.Windows.CommandLine

/-!
The command line in an answer of the system. The answer announces a string by a length and an address,
and both may be anything. The string is told exactly if it lies in the answer, and no byte outside the
answer is needed to find that out.
-/

namespace ProcessCensus.Windows

open Record

/-- The count of bytes that the header of an answer announces. -/
def announcedLength (answer : Bytes) : Nat :=
  Bytes.toNat (answer.take 2)

/-- The address of the string that the header of an answer announces. -/
def announcedAddress (answer : Bytes) : Nat :=
  Bytes.toNat ((answer.drop 8).take 8)

/-- The answer at the address `base` has a header, and the announced string lies in it. -/
structure HoldsString (base : UInt64) (answer : Bytes) : Prop where
  header : 16 ≤ answer.length
  lower : base.toNat ≤ announcedAddress answer
  upper : announcedAddress answer - base.toNat + announcedLength answer ≤ answer.length

instance (base : UInt64) (answer : Bytes) : Decidable (HoldsString base answer) :=
  decidable_of_iff (16 ≤ answer.length ∧ base.toNat ≤ announcedAddress answer ∧
      announcedAddress answer - base.toNat + announcedLength answer ≤ answer.length)
    ⟨fun hParts => ⟨hParts.1, hParts.2.1, hParts.2.2⟩,
      fun hHolds => ⟨hHolds.header, hHolds.lower, hHolds.upper⟩⟩

/-- The units stand in the answer one after the other from the place `start` on, the low byte of each
first. -/
def UnitsAt (answer : Bytes) (start : Nat) (units : List UInt16) : Prop :=
  ∀ i unit, units[i]? = some unit → ∃ low high, answer[start + 2 * i]? = some low ∧
    answer[start + 2 * i + 1]? = some high ∧ unit = UInt16.ofNat (low.toNat + 256 * high.toNat)

section Checked

/-- What must not happen while an answer is decoded. -/
inductive Mishap where
  /-- Some of the bytes from the place `first` on are outside. -/
  | outside (first count : Nat)
  /-- The sum does not fit into a machine word. -/
  | overflow (first second : Nat)

/-- Some bytes of an answer, all of which have to be there. -/
def bytesWithin (answer : Bytes) (first count : Nat) : Except Mishap Bytes :=
  if first + count ≤ answer.length then .ok ((answer.drop first).take count)
  else .error (.outside first count)

/-- A sum of machine words. -/
def wordSum (first second : Nat) : Except Mishap Nat :=
  if first + second < UInt64.size then .ok (first + second) else .error (.overflow first second)

/-- The decoder with every access to the answer and every sum checked. -/
def decodeChecked (base : UInt64) (answer : Bytes) :
    Except Mishap (Except Failure (List UInt16)) := do
  if answer.length < stringHeader.size then
    return .error (.malformed "UNICODE_STRING" "short buffer")
  let length ← bytesWithin answer 0 2
  let address ← bytesWithin answer 8 8
  if address.toNat < base.toNat then
    return .error (.malformed "UNICODE_STRING" "buffer outside the answer")
  let start := address.toNat - base.toNat
  if answer.length < (← wordSum start length.toNat) then
    return .error (.malformed "UNICODE_STRING" "buffer outside the answer")
  return .ok (Bytes.units (← bytesWithin answer start length.toNat))

end Checked

/-- What there is to tell of an answer. -/
inductive Told (base : UInt64) (answer : Bytes) : Except Failure (List UInt16) → Prop where
  | short (hShort : answer.length < 16) :
      Told base answer (.error (.malformed "UNICODE_STRING" "short buffer"))
  | outside (hHeader : 16 ≤ answer.length)
      (hOutside : announcedAddress answer < base.toNat ∨
        answer.length < announcedAddress answer - base.toNat + announcedLength answer) :
      Told base answer (.error (.malformed "UNICODE_STRING" "buffer outside the answer"))
  | text (hHolds : HoldsString base answer) :
      Told base answer (.ok (Bytes.units
        ((answer.drop (announcedAddress answer - base.toNat)).take (announcedLength answer))))

section Decoder

variable {base : UInt64} {answer : Bytes} {outcome : Except Failure (List UInt16)}

/-- The header that an answer starts with. -/
def announced (answer : Bytes) : StringHeader where
  length := UInt16.ofNat (announcedLength answer)
  address := UInt64.ofNat (announcedAddress answer)

theorem length_announced (answer : Bytes) :
    (announced answer).length.toNat = announcedLength answer :=
  UInt16.toNat_ofNat_of_lt (Bytes.toNat_take_lt answer 2)

theorem address_announced (answer : Bytes) :
    (announced answer).address.toNat = announcedAddress answer :=
  UInt64.toNat_ofNat_of_lt (Bytes.toNat_take_lt _ 8)

theorem ofRecord_take (hHeader : 16 ≤ answer.length) :
    StringHeader.ofRecord (answer.take 16) = .ok (announced answer) := by
  have hSize : stringHeader.size ≤ (answer.take 16).length := by
    rw [List.length_take_of_le hHeader]
    decide
  have hLength : stringHeader.field "Length" = .ok ⟨"Length", 0, 2⟩ := by decide
  have hAddress : stringHeader.field "Buffer" = .ok ⟨"Buffer", 8, 8⟩ := by decide
  have hLengthWord := Layout.word_eq_ok hLength (by decide) hSize
  have hAddressWord := Layout.word_eq_ok hAddress (by decide) hSize
  rw [Bytes.slice_take answer (by decide)] at hLengthWord hAddressWord
  rw [StringHeader.ofRecord, Layout.readUInt16, Layout.readAddress, hLengthWord, hAddressWord]
  rfl

/-- The decoder goes on from the header that the answer starts with. -/
theorem lineUnits_eq {answer : Sizing.Buffer UInt8} (hHeader : 16 ≤ answer.length) :
    lineUnits base answer = Attempt.ofExcept ((announced answer.toList).unitsIn base answer) := by
  have hSize : stringHeader.size = 16 := by decide
  have hRecord : StringHeader.ofRecord (answer.slice 0 16) = .ok (announced answer.toList) := by
    rw [Sizing.Buffer.slice_eq, List.drop_zero]
    exact ofRecord_take (hHeader.trans_eq answer.length_toList.symm)
  rw [lineUnits, hSize, if_neg (Nat.not_lt.mpr hHeader), hRecord]
  rfl

theorem told_unitsIn {answer : Sizing.Buffer UInt8} (hHeader : 16 ≤ answer.length) :
    Told base answer.toList ((announced answer.toList).unitsIn base answer) := by
  have hLength := answer.length_toList
  simp only [StringHeader.unitsIn, UInt64.lt_iff_toNat_lt, length_announced, address_announced,
    Sizing.Buffer.slice_eq]
  split
  case isTrue hOutside => exact .outside (by omega) (by rwa [hLength])
  case isFalse hInside => exact .text ⟨by omega, by omega, by omega⟩

/-- The decoder tells what there is to tell. -/
theorem exists_lineUnits_on (base : UInt64) (answer : Sizing.Buffer UInt8) :
    ∃ outcome, Told base answer.toList outcome ∧
      ∀ host, (lineUnits base answer).outcome.on host = (.ok outcome, host) := by
  rcases Nat.lt_or_ge answer.length 16 with hShort | hHeader
  · have hSize : stringHeader.size = 16 := by decide
    refine ⟨_, .short (answer.length_toList.trans_lt hShort), fun host => ?_⟩
    rw [lineUnits, hSize, if_pos hShort, Attempt.throw_bind]
    rfl
  · refine ⟨_, told_unitsIn hHeader, fun host => ?_⟩
    rw [lineUnits_eq hHeader]
    cases (announced answer.toList).unitsIn base answer <;> rfl

/-- No access of the decoder is outside the answer, and no sum that it makes is too large. -/
theorem decodeChecked_of_told (hTold : Told base answer outcome)
    (hMachine : announcedAddress answer - base.toNat + announcedLength answer < UInt64.size) :
    decodeChecked base answer = .ok outcome := by
  have hSize : stringHeader.size = 16 := by decide
  have hLength : 16 ≤ answer.length → bytesWithin answer 0 2 = .ok (answer.take 2) :=
    fun hHeader => if_pos (by omega)
  have hAddress : 16 ≤ answer.length → bytesWithin answer 8 8 = .ok ((answer.drop 8).take 8) :=
    fun hHeader => if_pos (by omega)
  have hSum : wordSum (announcedAddress answer - base.toNat) (announcedLength answer) =
      .ok (announcedAddress answer - base.toNat + announcedLength answer) :=
    if_pos hMachine
  -- The decoder reads both numbers of the header itself, so their names are opened.
  simp only [announcedLength, announcedAddress] at hSum
  rw [decodeChecked, hSize]
  cases hTold with
  | short hShort =>
      rw [if_pos hShort]
      rfl
  | outside hHeader hOutside =>
      simp only [announcedLength, announcedAddress] at hOutside
      rw [if_neg (Nat.not_lt.mpr hHeader)]
      simp only [hLength hHeader, hAddress hHeader, hSum, bind, Except.bind, pure, Except.pure]
      split
      · rfl
      · rw [if_pos (by omega)]
  | text hHolds =>
      obtain ⟨hHeader, hLower, hUpper⟩ := hHolds
      have hText : bytesWithin answer (announcedAddress answer - base.toNat) (announcedLength answer) =
          .ok _ := if_pos hUpper
      simp only [announcedLength, announcedAddress] at hLower hUpper hText ⊢
      rw [if_neg (Nat.not_lt.mpr hHeader)]
      simp only [hLength hHeader, hAddress hHeader, hSum, hText, bind, Except.bind, pure, Except.pure,
        if_neg (Nat.not_lt.mpr hLower), if_neg (Nat.not_lt.mpr hUpper)]

theorem unitsAt_slice (answer : Bytes) (start count : Nat) :
    UnitsAt answer start (Bytes.units ((answer.drop start).take count)) := by
  intro i unit hUnit
  obtain ⟨low, high, hLow, hHigh, rfl⟩ := Bytes.getElem?_units hUnit
  have hWhole : ∀ k b, ((answer.drop start).take count)[k]? = some b → answer[start + k]? = some b := by
    intro k b hByte
    rw [List.getElem?_take] at hByte
    split at hByte
    · rwa [List.getElem?_drop] at hByte
    · cases hByte
  exact ⟨low, high, hWhole _ _ hLow, hWhole _ _ hHigh, rfl⟩

/-- What the decoder does with an answer at `base`: it comes to `outcome` without reaching outside, and
the outcome is the announced string if the answer holds it and a complaint otherwise. -/
structure Decodes (base : UInt64) (answer : Bytes) (outcome : Except Failure (List UInt16)) : Prop where
  checked : decodeChecked base answer = .ok outcome
  ok_iff : (∃ units, outcome = .ok units) ↔ HoldsString base answer
  told : ∀ units, outcome = .ok units → units.length = announcedLength answer / 2 ∧
    UnitsAt answer (announcedAddress answer - base.toNat) units
  refused : ∀ failure, outcome = .error failure →
    ∃ detail, failure = .malformed "UNICODE_STRING" detail

/-- An answer that does not hold its string is complained about. -/
theorem decodes_of_malformed {detail : String}
    (hChecked : decodeChecked base answer = .ok (.error (.malformed "UNICODE_STRING" detail)))
    (hMissing : ¬HoldsString base answer) :
    Decodes base answer (.error (.malformed "UNICODE_STRING" detail)) where
  checked := hChecked
  ok_iff := iff_of_false (fun hOk => hOk.elim fun _ hUnits => by cases hUnits) hMissing
  told _ hUnits := by cases hUnits
  refused _ hFailure := ⟨detail, (Except.error.inj hFailure).symm⟩

theorem Told.decodes (hTold : Told base answer outcome)
    (hMachine : announcedAddress answer - base.toNat + announcedLength answer < UInt64.size) :
    Decodes base answer outcome := by
  have hChecked := decodeChecked_of_told hTold hMachine
  cases hTold with
  | short hShort =>
      exact decodes_of_malformed hChecked fun hHolds => absurd hHolds.header (Nat.not_le.mpr hShort)
  | outside hHeader hOutside =>
      refine decodes_of_malformed hChecked fun hHolds => ?_
      obtain ⟨-, hLower, hUpper⟩ := hHolds
      omega
  | text hHolds =>
      refine ⟨hChecked, iff_of_true ⟨_, rfl⟩ hHolds, fun units hUnits => ?_,
        fun failure hFailure => by cases hFailure⟩
      cases hUnits
      have hUpper := hHolds.upper
      refine ⟨?_, unitsAt_slice _ _ _⟩
      rw [Bytes.length_units, List.length_take, List.length_drop, Nat.min_eq_left (by omega)]

theorem Told.eq_text (hTold : Told base answer outcome) (hHolds : HoldsString base answer) :
    outcome = .ok (Bytes.units
      ((answer.drop (announcedAddress answer - base.toNat)).take (announcedLength answer))) := by
  obtain ⟨hHeader, hLower, hUpper⟩ := hHolds
  cases hTold with
  | short hShort => omega
  | outside _ hOutside => omega
  | text _ => rfl

/-- An answer that is a header, the units of a text and anything behind them. `between` stands for the
parts of the header that nobody looks at. -/
theorem lineUnits_of_text {answer : Sizing.Buffer UInt8} {units : List UInt16} {between tail : Bytes}
    (hCount : units.length ≤ 32767) (hBetween : between.length = 6)
    (hRoom : base.toNat + 16 < UInt64.size)
    (hAnswer : answer.toList = Bytes.ofNat 2 (2 * units.length) ++ (between ++
      (Bytes.ofNat 8 (base.toNat + 16) ++ (Bytes.ofUnits units ++ tail)))) (host : Host Kernel) :
    (lineUnits base answer).outcome.on host = (.ok (.ok units), host) := by
  have hLength : announcedLength answer.toList = 2 * units.length := by
    rw [announcedLength, hAnswer, List.take_left' (Bytes.length_ofNat 2 _), Bytes.toNat_ofNat (by omega)]
  have hBehind : answer.toList.drop 8 =
      Bytes.ofNat 8 (base.toNat + 16) ++ (Bytes.ofUnits units ++ tail) := by
    rw [hAnswer, ← List.append_assoc, List.drop_left' (by
      rw [List.length_append, Bytes.length_ofNat, hBetween])]
  have hAddress : announcedAddress answer.toList = base.toNat + 16 := by
    rw [announcedAddress, hBehind, List.take_left' (Bytes.length_ofNat 8 _), Bytes.toNat_ofNat hRoom]
  have hText : answer.toList.drop 16 = Bytes.ofUnits units ++ tail := by
    have hDrop : answer.toList.drop 16 = (answer.toList.drop 8).drop 8 := by rw [List.drop_drop]
    rw [hDrop, hBehind, List.drop_left' (Bytes.length_ofNat 8 _)]
  have hHolds : HoldsString base answer.toList := by
    have hWhole := congrArg List.length hText
    rw [List.length_drop, List.length_append, Bytes.length_ofUnits] at hWhole
    have hSize := congrArg List.length hAnswer
    simp only [List.length_append, Bytes.length_ofNat, Bytes.length_ofUnits] at hSize
    exact ⟨by omega, by omega, by omega⟩
  obtain ⟨outcome, hTold, hOn⟩ := exists_lineUnits_on base answer
  rw [hOn host, hTold.eq_text hHolds, hLength, hAddress, Nat.add_sub_cancel_left, hText,
    List.take_left' (Bytes.length_ofUnits units), Bytes.units_ofUnits]

end Decoder

section Call

variable {pid : Int32} {host : Host Kernel} {handle : Handle}

/-- The command line of a process that can be opened is what the decoder makes of the answer. -/
theorem commandLineUnits_on {answer : Sizing.Buffer UInt8} {outcome : Except Failure (List UInt16)}
    (hOpen : host.kernel.processes.lookup pid = some (.ok handle))
    (hLine : ((handle.line host.kernel.bufferAddress).outcome.on
      { host with kernel := host.kernel.handOut }).1 = .ok (.ok answer))
    (hDecoded : ∀ after, (lineUnits host.kernel.bufferAddress answer).outcome.on after =
      (.ok outcome, after)) :
    ((commandLineUnits pid).outcome.on host).1 = .ok outcome := by
  have hHandle : (openProcess pid).outcome.on host =
      (.ok (.ok handle), { host with kernel := host.kernel.handOut }) := by
    rw [openProcess, Attempt.outcome_call, Run.on_call, Kernel.openProcess, hOpen]
    rfl
  have hKernel := Attempt.on_lift_of_eq (Run.on_kernel { host with kernel := host.kernel.handOut })
  rw [commandLineUnits, holding, Attempt.on_bind_of_eq hHandle, Attempt.outcome_ensuring,
    Run.on_ensuring, Attempt.on_bind_of_eq hKernel]
  -- Opening a handle does not move the buffer, so the address is still that of `host`.
  change (Run.on (handle.line host.kernel.bufferAddress >>= _).outcome _).1 = _
  rw [Attempt.on_bind_of_eq (Prod.ext hLine rfl)]
  exact congrArg Prod.fst (hDecoded _)

/-- The answer of a system that is asked for the command line `units`. -/
def LineAnswer.ofLine (units : List UInt16) : LineAnswer where
  sizeStatus := lengthMismatch
  needed := UInt32.ofNat (16 + 2 * units.length)
  status := 0
  length := UInt16.ofNat (2 * units.length)
  offset := 16
  body := Bytes.ofUnits units
  reported := none

theorem bytes_ofLine (base : UInt64) (units : List UInt16) :
    (LineAnswer.ofLine units).bytes base =
      Bytes.ofNat 2 (UInt16.ofNat (2 * units.length)).toNat ++
        ((Bytes.ofNat 2 (UInt16.ofNat (2 * units.length)).toNat ++ [0, 0, 0, 0]) ++
          (Bytes.ofNat 8 (base.toNat + 16) ++ (Bytes.ofUnits units ++ []))) := by
  have hText : ((base.toNat : Int) + 16).toNat = base.toNat + 16 := rfl
  rw [LineAnswer.bytes, LineAnswer.ofLine]
  simp only [hText, List.append_nil, ← List.append_assoc]
  rfl

theorem length_bytes_ofLine (base : UInt64) (units : List UInt16) :
    ((LineAnswer.ofLine units).bytes base).length = 16 + 2 * units.length := by
  rw [bytes_ofLine]
  simp only [List.length_append, Bytes.length_ofNat, Bytes.length_ofUnits, List.length_cons,
    List.length_nil]
  omega

theorem fill_ofLine {base : UInt64} {units : List UInt16} {size : UInt32}
    (hSize : 16 + 2 * units.length ≤ size.toNat) :
    (LineAnswer.ofLine units).fill base size =
      (0, ⟨(LineAnswer.ofLine units).bytes base, 16 + 2 * units.length⟩) := by
  have hLength := length_bytes_ofLine base units
  have hSome : size ≠ 0 := by
    rintro rfl
    exact absurd hSize (by rw [UInt32.toNat_zero]; omega)
  have hWhole : ((LineAnswer.ofLine units).bytes base).take size.toNat =
      (LineAnswer.ofLine units).bytes base := List.take_of_length_le (by omega)
  have hStatus : (LineAnswer.ofLine units).status = 0 := rfl
  rw [LineAnswer.fill, if_neg hSome, if_pos hStatus, hWhole, ← hLength]
  rfl

/-- An answer that tells its size fits into the first buffer that is made for it. -/
theorem exists_line_on {units : List UInt16} (hCount : units.length ≤ 32767)
    (hLine : handle.commandLine = some (.ofLine units)) (base : UInt64) (host : Host Kernel) :
    ∃ answer, (handle.line base).outcome.on host = (.ok (.ok answer), host) ∧
      answer.toList = (LineAnswer.ofLine units).bytes base := by
  have hLength := length_bytes_ofLine base units
  have hMost : Sizing.maxCount = 18446744073709551615 := by decide
  have hBytes : Sizing.maxBytes = 9223372036854775807 := by decide
  have hFits : 16 + 2 * units.length < Sizing.capacityFor (16 + 2 * units.length) :=
    Sizing.lt_capacityFor (by omega)
  have hSmall : Sizing.capacityFor (16 + 2 * units.length) < UInt32.size := by
    have hSize : UInt32.size = 4294967296 := by decide
    rw [Sizing.capacityFor]
    omega
  have hSize : handle.lineSize base = .ok (16 + 2 * units.length) := by
    have hNeeded : (UInt32.ofNat (16 + 2 * units.length)).toNat = 16 + 2 * units.length :=
      UInt32.toNat_ofNat_of_lt (hFits.trans hSmall)
    rw [Handle.lineSize, Handle.queryLine, hLine, ← hNeeded]
    rfl
  have hReserved : 1 * Sizing.capacityFor (16 + 2 * units.length) ≤ Sizing.maxBytes := by
    have hWord : UInt32.size = 4294967296 := by decide
    omega
  have hFill : handle.fillLine base (Sizing.capacityFor (16 + 2 * units.length)) =
      .ok ⟨(LineAnswer.ofLine units).bytes base, 16 + 2 * units.length⟩ := by
    have hCapacity : (UInt32.ofNat (Sizing.capacityFor (16 + 2 * units.length))).toNat =
        Sizing.capacityFor (16 + 2 * units.length) := UInt32.toNat_ofNat_of_lt hSmall
    rw [Handle.fillLine, Handle.queryLine, hLine]
    simp only [fill_ofLine (hFits.le.trans_eq hCapacity.symm), if_true]
  -- The buffer is not filled to the end, so the first of the three rounds is the last.
  refine ⟨.ofWritten 0 ((LineAnswer.ofLine units).bytes base) (16 + 2 * units.length), ?_,
    Sizing.Buffer.toList_ofWritten 0 hLength⟩
  rw [Handle.line, hSize, Sizing.probeThenFetch, Sizing.maxAttempts, Sizing.attemptFrom]
  simp only [Attempt.ofExcept, pure_bind, Sizing.reserve, if_pos hReserved, hFill, if_pos hFits]
  rfl

end Call

/-- Of any answer, wherever it lies and whatever it says, the decoder tells the announced string if the
answer holds it and complains otherwise, and it reaches for no byte outside the answer. All that is
asked is that the end of the string is a machine word. The command line of a process that can be opened
is decoded so. A text of up to 32767 units behind its header is told as it is, and where the system
answers with the command line of a process, just that command line is told. -/
theorem command_line_as_announced :
    (∀ (base : UInt64) (answer : Sizing.Buffer UInt8),
      announcedAddress answer.toList - base.toNat + announcedLength answer.toList < UInt64.size →
      ∃ outcome, Decodes base answer.toList outcome ∧
        (∀ host, (lineUnits base answer).outcome.on host = (.ok outcome, host)) ∧
        ∀ (pid : Int32) (host : Host Kernel) (handle : Handle),
          host.kernel.processes.lookup pid = some (.ok handle) →
          host.kernel.bufferAddress = base →
          ((handle.line base).outcome.on { host with kernel := host.kernel.handOut }).1 =
            .ok (.ok answer) →
          ((commandLineUnits pid).outcome.on host).1 = .ok outcome) ∧
      (∀ (base : UInt64) (answer : Sizing.Buffer UInt8) (units : List UInt16) (between tail : Bytes),
        units.length ≤ 32767 → between.length = 6 → base.toNat + 16 < UInt64.size →
        answer.toList = Bytes.ofNat 2 (2 * units.length) ++ (between ++
          (Bytes.ofNat 8 (base.toNat + 16) ++ (Bytes.ofUnits units ++ tail))) →
        ∀ host, (lineUnits base answer).outcome.on host = (.ok (.ok units), host)) ∧
      ∀ (pid : Int32) (host : Host Kernel) (handle : Handle) (units : List UInt16),
        host.kernel.processes.lookup pid = some (.ok handle) →
        handle.commandLine = some (.ofLine units) → units.length ≤ 32767 →
        host.kernel.bufferAddress.toNat + 16 < UInt64.size →
        ((commandLineUnits pid).outcome.on host).1 = .ok (.ok units) := by
  refine ⟨fun base answer hMachine => ?_, ?_, fun pid host handle units hOpen hLine hCount hRoom => ?_⟩
  · obtain ⟨outcome, hTold, hOn⟩ := exists_lineUnits_on base answer
    refine ⟨outcome, hTold.decodes hMachine, hOn, fun pid host handle hOpen hBase hLine => ?_⟩
    subst hBase
    exact commandLineUnits_on hOpen hLine hOn
  · intro base answer units between tail hCount hBetween hRoom hAnswer
    exact lineUnits_of_text hCount hBetween hRoom hAnswer
  · obtain ⟨answer, hOn, hBytes⟩ := exists_line_on hCount hLine host.kernel.bufferAddress
      { host with kernel := host.kernel.handOut }
    have hLength : (UInt16.ofNat (2 * units.length)).toNat = 2 * units.length :=
      UInt16.toNat_ofNat_of_lt (by rw [UInt16.size]; omega)
    rw [bytes_ofLine, hLength] at hBytes
    exact commandLineUnits_on hOpen (congrArg Prod.fst hOn) (lineUnits_of_text hCount
      (by rw [List.length_append, Bytes.length_ofNat]; rfl) hRoom hBytes)

/-- Three bytes at the very end of an answer of nineteen are one unit, and four would be too many. -/
theorem command_line_as_announced_at_the_end :
    let answer (length : UInt8) : Sizing.Buffer UInt8 :=
      .ofWritten 0 [length, 0, 9, 9, 9, 9, 9, 9, 16, 0, 0, 0, 1, 0, 0, 0, 0x61, 0, 0x62] 19
    HoldsString 0x100000000 (answer 3).toList ∧ ¬HoldsString 0x100000000 (answer 4).toList ∧
      (∀ host, (lineUnits 0x100000000 (answer 3)).outcome.on host = (.ok (.ok [0x61]), host)) ∧
      ∀ host, ∃ failure, (lineUnits 0x100000000 (answer 4)).outcome.on host =
        (.ok (.error failure), host) := by
  intro answer
  have hHolds : HoldsString 0x100000000 (answer 3).toList := by decide
  have hMissing : ¬HoldsString 0x100000000 (answer 4).toList := by decide
  obtain ⟨three, hThree, hOnThree, -⟩ := command_line_as_announced.1 0x100000000 (answer 3) (by decide)
  obtain ⟨four, hFour, hOnFour, -⟩ := command_line_as_announced.1 0x100000000 (answer 4) (by decide)
  refine ⟨hHolds, hMissing, fun host => ?_, fun host => ?_⟩
  · obtain ⟨units, rfl⟩ := hThree.ok_iff.mpr hHolds
    obtain ⟨hLength, hUnits⟩ := hThree.told units rfl
    have hOne : announcedLength (answer 3).toList / 2 = 1 := by decide
    obtain ⟨unit, rfl⟩ := List.length_eq_one_iff.mp (hLength.trans hOne)
    obtain ⟨low, high, hLow, hHigh, rfl⟩ := hUnits 0 unit rfl
    have hPlace : announcedAddress (answer 3).toList - (0x100000000 : UInt64).toNat = 16 := by decide
    rw [hPlace] at hLow hHigh
    cases hLow
    cases hHigh
    exact hOnThree host
  · cases four with
    | ok units => exact absurd (hFour.ok_iff.mp ⟨units, rfl⟩) hMissing
    | error failure => exact ⟨failure, hOnFour host⟩

end ProcessCensus.Windows
