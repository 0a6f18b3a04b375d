import ProcessCensus.Proofs.Darwin.Resolver
import ProcessCensus.Proofs.Release
import ProcessCensus.Proofs.Text.Split

/-!
What is told about a Darwin process, word for word: which bytes of which answer an attribute comes
from. Only the record about the task is needed; whatever the other calls answer, something is told.
-/

namespace ProcessCensus.Darwin

open Record

namespace Kernel

/-- What the next call with a buffer of `capacity` bytes writes and reports, unless it fails. -/
def answer? (kernel : Kernel) (call : Call) (capacity : Nat) : Option Written :=
  match kernel.reply? call with
  | some (.data content count) =>
    some ⟨content.take capacity, count.getD (content.take capacity).length⟩
  | _ => none

/-- What the next call returns: the count that it reports, or a negative number if it fails. -/
def returned (kernel : Kernel) (call : Call) (capacity : Nat) : Int :=
  (kernel.answer? call capacity).elim (-1) Written.count

/-- The buffer after the next call. Bytes that are not written are zero. -/
def filled (kernel : Kernel) (call : Call) (capacity : Nat) : Bytes :=
  ((kernel.answer? call capacity).elim [] Written.content ++ .replicate capacity 0).take capacity

variable {kernel : Kernel} {call : Call} {capacity size : Nat} {written : Written}

@[simp] theorem length_filled (kernel : Kernel) (call : Call) (capacity : Nat) :
    (kernel.filled call capacity).length = capacity := by
  simp [filled]

@[simp] theorem take_filled (kernel : Kernel) (call : Call) (capacity : Nat) :
    (kernel.filled call capacity).take capacity = kernel.filled call capacity :=
  List.take_of_length_le (Nat.le_of_eq (kernel.length_filled call capacity))

/-- A part of the buffer that is looked at is one of the buffer that was filled. -/
theorem toList_buffer_of_answer (hAnswer : kernel.answer? call capacity = some written)
    (hSize : size ≤ capacity) :
    (written.buffer size).toList = (kernel.filled call capacity).take size := by
  have hRest : size - min size written.content.length ≤ capacity := by omega
  simp only [filled, hAnswer, Option.elim_some, List.take_take, Nat.min_eq_left hSize,
    Written.buffer, Sizing.Buffer.ofWritten, Sizing.Buffer.toList, List.length_take,
    List.take_append, List.take_replicate]
  congr 2
  omega

end Kernel

section Finding

variable {α : Type}

/-- What is made of an answer is found if there is one. -/
theorem found_perform_bind (name : String) (call : Call) (capacity : Nat)
    (made : Written → Option α) {next : Written → Attempt Kernel α}
    (hNext : ∀ written, ∃ result : Except Failure α, result.toOption = made written ∧
      ∀ host, (next written).outcome.on host = (.ok result, host))
    (host : Host Kernel) :
    found (perform name call capacity >>= next) host =
      (host.kernel.answer? call capacity).bind made := by
  choose result hMade hOn using hNext
  obtain ⟨after, hPerform, -⟩ := perform_bind_on name call capacity hOn host
  rw [found, hPerform, Kernel.answer?]
  rcases host.kernel.reply? call with _ | ⟨content, count⟩ | code
  · rfl
  · dsimp only
    rw [Option.bind_some, ← hMade]
    cases result _ <;> rfl
  · rfl

/-- What is made of a record is found if the answer is as long as the record. -/
theorem found_processRecord_bind (pid : Int32) (flavor : Nat) {layout : Record.Layout} {size : Nat}
    (hSize : layout.size = size) (hPos : 0 < size) (made : Bytes → Option α)
    {next : Bytes → Attempt Kernel α}
    (hNext : ∀ record, record.length = size → ∃ result : Except Failure α,
      result.toOption = made record ∧ ∀ host, (next record).outcome.on host = (.ok result, host))
    (host : Host Kernel) :
    found (processRecord pid flavor layout >>= next) host =
      if host.kernel.returned (.processInfo pid flavor) size < size then none
      else made (host.kernel.filled (.processInfo pid flavor) size) := by
  subst hSize
  have hFound : found (processRecord pid flavor layout >>= next) host =
      (host.kernel.answer? (.processInfo pid flavor) layout.size).bind fun written =>
        if written.count < layout.size then none else made (written.buffer layout.size).toList := by
    rw [processRecord, bind_assoc]
    refine found_perform_bind _ _ _ _ (fun written => ?_) host
    by_cases hFailed : written.count ≤ 0
    case pos =>
      -- A count that is refused for not being positive is also too small.
      simp only [if_pos hFailed, if_pos (show written.count < layout.size by omega)]
      exact ⟨_, rfl, fun _ => rfl⟩
    case neg =>
      simp only [if_neg hFailed]
      split
      case isTrue => exact ⟨_, rfl, fun _ => rfl⟩
      case isFalse =>
        simp only [pure_bind]
        exact hNext _ (Sizing.Buffer.length_toList _)
  rw [hFound, Kernel.returned]
  cases hAnswer : host.kernel.answer? (.processInfo pid flavor) layout.size with
  | none =>
      rw [Option.elim_none, if_pos (by omega)]
      rfl
  | some written =>
      rw [Option.bind_some, Option.elim_some,
        Kernel.toList_buffer_of_answer hAnswer Nat.le.refl, Kernel.take_filled]

end Finding

/-- The record about a process and its task, field by field. -/
def recordIn (buffer : Bytes) : TaskRecord where
  flags := .ofNat (buffer.wordAt 0 4)
  status := .ofNat (buffer.wordAt 4 4)
  parent := .ofNat (buffer.wordAt 16 4)
  userId := .ofNat (buffer.wordAt 20 4)
  groupId := .ofNat (buffer.wordAt 24 4)
  command := Text.cString ((buffer.drop 48).take 16)
  openFiles := .ofNat (buffer.wordAt 96 4)
  startSeconds := .ofNat (buffer.wordAt 120 8)
  startMicroseconds := .ofNat (buffer.wordAt 128 8)
  virtualSize := .ofNat (buffer.wordAt 136 8)
  residentSize := .ofNat (buffer.wordAt 144 8)
  userTime := .ofNat (buffer.wordAt 152 8)
  kernelTime := .ofNat (buffer.wordAt 160 8)
  faults := .ofNat (buffer.wordAt 188 4)
  pageIns := .ofNat (buffer.wordAt 192 4)
  switches := .ofNat (buffer.wordAt 216 4)
  threads := .ofNat (buffer.wordAt 220 4)
  priority := .ofNat (buffer.wordAt 228 4)

theorem ofBytes_eq {buffer : Bytes} (hBuffer : processTaskInfo.size ≤ buffer.length) :
    TaskRecord.ofBytes buffer = .ok (recordIn buffer) := by
  have hUnsigned : ∀ {path offset}, processTaskInfo.Places path offset 4 →
      processTaskInfo.readUInt32 buffer path = .ok (.ofNat (buffer.wordAt offset 4)) :=
    fun hPlaces => hPlaces.number_eq_ok hBuffer UInt32.ofNat
  have hSigned : ∀ {path offset}, processTaskInfo.Places path offset 4 →
      processTaskInfo.readInt32 buffer path = .ok (.ofNat (buffer.wordAt offset 4)) :=
    fun hPlaces => hPlaces.number_eq_ok hBuffer Int32.ofNat
  have hLong : ∀ {path offset}, processTaskInfo.Places path offset 8 →
      processTaskInfo.readUInt64 buffer path = .ok (.ofNat (buffer.wordAt offset 8)) :=
    fun hPlaces => hPlaces.number_eq_ok hBuffer UInt64.ofNat
  have hCommand : processTaskInfo.readCString buffer "pbsd.pbi_comm" =
      .ok (Text.cString ((buffer.drop 48).take 16)) := by
    have hPlaces : processTaskInfo.Places "pbsd.pbi_comm" 48 16 := by decide
    rw [Layout.readCString_eq, hPlaces.bytes_eq_ok hBuffer]
    rfl
  rw [TaskRecord.ofBytes,
    hUnsigned (show processTaskInfo.Places "pbsd.pbi_flags" 0 4 by decide),
    hUnsigned (show processTaskInfo.Places "pbsd.pbi_status" 4 4 by decide),
    hUnsigned (show processTaskInfo.Places "pbsd.pbi_ppid" 16 4 by decide),
    hUnsigned (show processTaskInfo.Places "pbsd.pbi_uid" 20 4 by decide),
    hUnsigned (show processTaskInfo.Places "pbsd.pbi_gid" 24 4 by decide), hCommand,
    hUnsigned (show processTaskInfo.Places "pbsd.pbi_nfiles" 96 4 by decide),
    hLong (show processTaskInfo.Places "pbsd.pbi_start_tvsec" 120 8 by decide),
    hLong (show processTaskInfo.Places "pbsd.pbi_start_tvusec" 128 8 by decide),
    hLong (show processTaskInfo.Places "ptinfo.pti_virtual_size" 136 8 by decide),
    hLong (show processTaskInfo.Places "ptinfo.pti_resident_size" 144 8 by decide),
    hLong (show processTaskInfo.Places "ptinfo.pti_total_user" 152 8 by decide),
    hLong (show processTaskInfo.Places "ptinfo.pti_total_system" 160 8 by decide),
    hSigned (show processTaskInfo.Places "ptinfo.pti_faults" 188 4 by decide),
    hSigned (show processTaskInfo.Places "ptinfo.pti_pageins" 192 4 by decide),
    hSigned (show processTaskInfo.Places "ptinfo.pti_csw" 216 4 by decide),
    hSigned (show processTaskInfo.Places "ptinfo.pti_threadnum" 220 4 by decide),
    hSigned (show processTaskInfo.Places "ptinfo.pti_priority" 228 4 by decide)]
  rfl

theorem found_taskRecord (pid : Int32) (host : Host Kernel) :
    found (taskRecord pid) host =
      if host.kernel.returned (.processInfo pid 2) 232 < 232 then none
      else if (recordIn (host.kernel.filled (.processInfo pid 2) 232)).threads ≤ 0 then none
      else some (recordIn (host.kernel.filled (.processInfo pid 2) 232)) := by
  have hSize : processTaskInfo.size = 232 := by decide
  refine found_processRecord_bind pid taskFlavor hSize (by decide)
    (fun buffer => if (recordIn buffer).threads ≤ 0 then none else some (recordIn buffer))
    (fun buffer hBuffer => ?_) host
  rw [ofBytes_eq (Nat.le_of_eq (hSize.trans hBuffer.symm))]
  split
  case isTrue hNone =>
    exact ⟨.error (.malformed processTaskInfo.name "no threads"), rfl, fun host =>
      (Attempt.on_bind_of_eq (Attempt.on_lift_of_eq rfl) _).trans (by rw [if_pos hNone]; rfl)⟩
  case isFalse hSome =>
    exact ⟨.ok (recordIn buffer), rfl, fun host =>
      (Attempt.on_bind_of_eq (Attempt.on_lift_of_eq rfl) _).trans (by rw [if_neg hSome]; rfl)⟩

theorem found_processPath (pid : Int32) {host : Host Kernel}
    (hFits : host.kernel.returned (.processPath pid) 4096 ≤ 4096) :
    found (processPath pid) host =
      if host.kernel.returned (.processPath pid) 4096 ≤ 0 then none
      else some (Text.cString ((host.kernel.filled (.processPath pid) 4096).take
        (host.kernel.returned (.processPath pid) 4096).toNat)) := by
  have hFound : found (processPath pid) host =
      (host.kernel.answer? (.processPath pid) maxPath).bind fun written =>
        if written.count ≤ 0 then none
        else some (Text.cString (written.buffer (min maxPath written.count.toNat)).toList) := by
    refine found_perform_bind _ _ _ _ (fun written => ?_) host
    split
    case isTrue => exact ⟨_, rfl, fun _ => rfl⟩
    case isFalse => exact ⟨_, rfl, fun _ => rfl⟩
  rw [hFound, Kernel.returned]
  rw [Kernel.returned] at hFits
  cases hAnswer : host.kernel.answer? (.processPath pid) 4096 with
  | none =>
      rw [maxPath, hAnswer]
      rfl
  | some written =>
      rw [hAnswer, Option.elim_some] at hFits
      -- So short a path is not cut.
      have hShort : written.count.toNat ≤ 4096 := by omega
      rw [maxPath, hAnswer, Option.bind_some, Option.elim_some, Nat.min_eq_right hShort,
        Kernel.toList_buffer_of_answer hAnswer hShort]

/-- The bytes read and written that a record of resources tells. -/
def usageIn (buffer : Bytes) : UInt64 × UInt64 :=
  (.ofNat (buffer.wordAt 144 8), .ofNat (buffer.wordAt 152 8))

theorem found_diskUsage (pid : Int32) (release : Release) (host : Host Kernel) :
    found (diskUsage pid release) host =
      if release.atLeast ⟨10, 9⟩ then
        (host.kernel.answer? (.resourceUsage pid 2) 160).map fun _ =>
          usageIn (host.kernel.filled (.resourceUsage pid 2) 160)
      else some (0, 0) := by
  rw [diskUsage, resourceUsageFor]
  by_cases hCounted : release.atLeast ⟨10, 9⟩ = true
  case neg =>
    rw [if_neg hCounted, if_neg hCounted]
    rfl
  case pos =>
    have hSize : resourceUsage.size = 160 := by decide
    rw [if_pos hCounted, if_pos hCounted]
    simp only [hSize]
    refine (found_perform_bind "proc_pid_rusage" (.resourceUsage pid usageFlavor) 160
      (fun written => some (usageIn (written.buffer 160).toList)) (fun written => ?_) host).trans ?_
    · have hLength : resourceUsage.size ≤ (written.buffer 160).toList.length := by
        rw [hSize, Sizing.Buffer.length_toList]
        exact Nat.le.refl
      have hRead : resourceUsage.Places "ri_diskio_bytesread" 144 8 := by decide
      have hWritten : resourceUsage.Places "ri_diskio_byteswritten" 152 8 := by decide
      rw [Layout.readUInt64, hRead.number_eq_ok hLength, Layout.readUInt64,
        hWritten.number_eq_ok hLength]
      exact ⟨_, rfl, fun _ => rfl⟩
    · rw [usageFlavor]
      cases hAnswer : host.kernel.answer? (.resourceUsage pid 2) 160 with
      | none => rfl
      | some written =>
          rw [Option.bind_some, Option.map_some,
            Kernel.toList_buffer_of_answer hAnswer Nat.le.refl, Kernel.take_filled]

section Numbers

variable {buffer : Bytes} {offset : Nat}

theorem toInt_ofNat_wordAt : (Int32.ofNat (buffer.wordAt offset 4)).toInt = buffer.signedAt offset :=
  Int32.toInt_ofNat'

theorem toNat_ofNat_wordAt_four : (UInt32.ofNat (buffer.wordAt offset 4)).toNat = buffer.wordAt offset 4 :=
  UInt32.toNat_ofNat_of_lt' (buffer.wordAt_lt offset 4)

theorem toNat_ofNat_wordAt_eight :
    (UInt64.ofNat (buffer.wordAt offset 8)).toNat = buffer.wordAt offset 8 :=
  UInt64.toNat_ofNat_of_lt' (buffer.wordAt_lt offset 8)

theorem toNat_countOf (value : Int32) : ((countOf value).toNat : Int) = max 0 value.toInt := by
  have hHigh := value.toInt_le
  have hMax : Int32.maxValue.toInt = 2 ^ 31 - 1 := by decide
  rw [countOf, Int32.toNatClampNeg, UInt64.toNat_ofNat_of_lt' (by simp only [UInt64.size]; omega)]
  omega

theorem toNat_excess (a b : UInt64) : (excess a b).toNat = a.toNat - b.toNat := by
  rw [excess]
  split
  case isTrue hLess =>
    have hNat := UInt64.lt_iff_toNat_lt.mp hLess
    rw [UInt64.toNat_zero]
    omega
  case isFalse hLe => exact UInt64.toNat_sub_of_le _ _ (UInt64.not_lt.mp hLe)

/-- Two counts are told apart in such a way that they come to the larger one. -/
theorem toNat_excess_add (first second : Int32) :
    ((excess (countOf first) (countOf second)).toNat + (countOf second).toNat : Int) =
      max 0 (max first.toInt second.toInt) := by
  have hFirst := toNat_countOf first
  have hSecond := toNat_countOf second
  rw [toNat_excess]
  omega

/-- A positive number stays the same without its sign. -/
theorem toNat_toUInt32_of_pos {value : Int32} (hPos : ¬value ≤ 0) :
    (value.toUInt32.toNat : Int) = value.toInt := by
  have hNonneg := Int32.le_of_lt (Int32.not_le.mp hPos)
  have hInt := Int32.le_iff_toInt_le.mp hNonneg
  rw [Int32.toNat_toUInt32_of_le hNonneg, Int32.toNatClampNeg]
  exact Int.toNat_of_nonneg hInt

theorem toNat_startMillis {seconds microseconds : UInt64}
    (hFits : seconds.toNat * 1000 + microseconds.toNat / 1000 < 2 ^ 64) :
    (startMillis seconds microseconds).toNat = seconds.toNat * 1000 + microseconds.toNat / 1000 := by
  rw [startMillis, UInt64.toNat_add, UInt64.toNat_mul, UInt64.toNat_div]
  change (seconds.toNat * 1000 % 2 ^ 64 + microseconds.toNat / 1000) % 2 ^ 64 = _
  omega

end Numbers

/-- What is told is the record, word for word. -/
structure Recorded (record : Bytes) (a : Attributes) : Prop where
  parent : a.parent.toInt = record.signedAt 16
  userId : a.userId = toString (record.wordAt 20 4)
  groupId : a.groupId = toString (record.wordAt 24 4)
  openFiles : a.openFiles.toNat = record.wordAt 96 4
  startTime : a.startTime.toNat = record.wordAt 120 8 * 1000 + record.wordAt 128 8 / 1000
  virtualSize : a.virtualSize.toNat = record.wordAt 136 8
  residentSize : a.residentSize.toNat = record.wordAt 144 8
  majorFaults : (a.majorFaults.toNat : Int) = max 0 (record.signedAt 192)
  faults : (a.minorFaults.toNat + a.majorFaults.toNat : Int) =
    max 0 (max (record.signedAt 188) (record.signedAt 192))
  contextSwitches : (a.contextSwitches.toNat : Int) = max 0 (record.signedAt 216)
  threads : (a.threads.toNat : Int) = record.signedAt 220
  priority : a.priority.toInt = record.signedAt 228

/-- The path is what the kernel tells, if it tells any, and the name is its last component. Without one
it is the command name in the record. -/
structure Named (kernel : Kernel) (pid : Int32) (record : Bytes) (a : Attributes) : Prop where
  path : a.path = if kernel.returned (.processPath pid) 4096 ≤ 0 then "" else
    Text.cString ((kernel.filled (.processPath pid) 4096).take
      (kernel.returned (.processPath pid) 4096).toNat)
  name : ∃ base, Text.EndsIn '/' a.path.toList base ∧
    a.name = if base = [] then Text.cString ((record.drop 48).take 16) else String.ofList base

/-- The kernel counts the bytes that processes read and write, and tells what it counted. -/
def Counts (kernel : Kernel) (pid : Int32) (release : Release) : Prop :=
  (10 < release.major ∨ release.major = 10 ∧ 9 ≤ release.minor) ∧
    (kernel.answer? (.resourceUsage pid 2) 160).isSome = true

/-- The bytes read and written are those that the kernel counts, or 0. -/
structure Metered (kernel : Kernel) (pid : Int32) (release : Release) (a : Attributes) : Prop where
  counted : Counts kernel pid release →
    a.bytesRead.toNat = (kernel.filled (.resourceUsage pid 2) 160).wordAt 144 8 ∧
      a.bytesWritten.toNat = (kernel.filled (.resourceUsage pid 2) 160).wordAt 152 8
  uncounted : ¬Counts kernel pid release → a.bytesRead = 0 ∧ a.bytesWritten = 0

theorem recorded {record : Bytes} (hThreads : ¬(recordIn record).threads ≤ 0)
    (hStart : record.wordAt 120 8 * 1000 + record.wordAt 128 8 / 1000 < 2 ^ 64)
    (timebase : Timebase) (additions : Additions) :
    Recorded record ((recordIn record).attributes timebase additions) := by
  have hCount : ∀ offset, ((countOf (.ofNat (record.wordAt offset 4))).toNat : Int) =
      max 0 (record.signedAt offset) :=
    fun offset => (toNat_countOf _).trans (congrArg (max 0) toInt_ofNat_wordAt)
  have hOwner : ∀ offset, toString (UInt32.ofNat (record.wordAt offset 4)) =
      toString (record.wordAt offset 4) :=
    fun offset => congrArg (toString : Nat → String) toNat_ofNat_wordAt_four
  constructor
  case parent =>
    change (UInt32.ofNat _).toInt32.toInt = _
    rw [UInt32.toInt32_ofNat', toInt_ofNat_wordAt]
  case userId => exact hOwner 20
  case groupId => exact hOwner 24
  case openFiles => exact (UInt32.toNat_toUInt64 _).trans toNat_ofNat_wordAt_four
  case startTime =>
    rw [← toNat_ofNat_wordAt_eight, ← @toNat_ofNat_wordAt_eight record 128] at hStart ⊢
    exact toNat_startMillis hStart
  case virtualSize => exact toNat_ofNat_wordAt_eight
  case residentSize => exact toNat_ofNat_wordAt_eight
  case majorFaults => exact hCount 192
  case faults =>
    rw [← toInt_ofNat_wordAt, ← @toInt_ofNat_wordAt record 192]
    exact toNat_excess_add _ _
  case contextSwitches => exact hCount 216
  case threads => exact (toNat_toUInt32_of_pos hThreads).trans toInt_ofNat_wordAt
  case priority => exact toInt_ofNat_wordAt

theorem named (pid : Int32) (release : Release) {host : Host Kernel} (record : Bytes)
    (hPath : host.kernel.returned (.processPath pid) 4096 ≤ 4096) (timebase : Timebase) :
    Named host.kernel pid record ((recordIn record).attributes timebase
      (additions pid release (recordIn record) host)) where
  path := by
    change (found (processPath pid) host).getD "" = _
    rw [found_processPath pid hPath]
    split <;> rfl
  name := by
    refine ⟨_, Text.endsIn_lastComponent '/' _, ?_⟩
    change processName _ _ = _
    simp only [processName, List.isEmpty_iff]
    rfl

theorem counts_iff {kernel : Kernel} {pid : Int32} {release : Release} :
    Counts kernel pid release ↔ release.atLeast ⟨10, 9⟩ = true ∧
      (kernel.answer? (.resourceUsage pid 2) 160).isSome = true := by
  rw [Counts, Release.atLeast_iff]

theorem metered (pid : Int32) (release : Release) (host : Host Kernel) (record : TaskRecord)
    (timebase : Timebase) :
    Metered host.kernel pid release
      (record.attributes timebase (additions pid release record host)) := by
  have hFound := found_diskUsage pid release host
  constructor
  case counted =>
    intro hCounts
    obtain ⟨hRelease, hSome⟩ := counts_iff.mp hCounts
    obtain ⟨written, hAnswer⟩ := Option.isSome_iff_exists.mp hSome
    have hUsage : (found (diskUsage pid release) host).getD (0, 0) =
        usageIn (host.kernel.filled (.resourceUsage pid 2) 160) := by
      rw [hFound, if_pos hRelease, hAnswer]
      rfl
    exact ⟨(congrArg (·.1.toNat) hUsage).trans toNat_ofNat_wordAt_eight,
      (congrArg (·.2.toNat) hUsage).trans toNat_ofNat_wordAt_eight⟩
  case uncounted =>
    intro hCounts
    have hNothing : (found (diskUsage pid release) host).getD (0, 0) = (0, 0) := by
      rw [hFound]
      split
      case isTrue hRelease =>
        have hNone := Option.not_isSome_iff_eq_none.mp fun hSome =>
          hCounts (counts_iff.mpr ⟨hRelease, hSome⟩)
        rw [hNone]
        rfl
      case isFalse => rfl
    exact ⟨congrArg Prod.fst hNothing, congrArg Prod.snd hNothing⟩

/-- What is told about a process is its record, word for word, with what the kernel tells of its path
and of the bytes it has read and written. Nothing is told without a full record, or if the record has
no threads. -/
theorem attributes_of_record (pid : Int32) (release : Release) (host : Host Kernel) {record : Bytes}
    (hRecord : host.kernel.filled (.processInfo pid 2) 232 = record)
    (hStart : record.wordAt 120 8 * 1000 + record.wordAt 128 8 / 1000 < 2 ^ 64)
    (hPath : host.kernel.returned (.processPath pid) 4096 ≤ 4096) :
    ∃ told, ((attributes pid release).on host).1 = .ok told ∧
      (told = none ↔ host.kernel.returned (.processInfo pid 2) 232 < 232 ∨ record.signedAt 220 ≤ 0) ∧
      ∀ a, told = some a → Recorded record a ∧ Named host.kernel pid record a ∧
        Metered host.kernel pid release a := by
  have hThreads : (recordIn record).threads ≤ 0 ↔ record.signedAt 220 ≤ 0 := by
    rw [← toInt_ofNat_wordAt, Int32.le_iff_toInt_le]
    rfl
  refine ⟨_, attributes_on pid release host, ?_⟩
  rw [found_taskRecord, hRecord, ← hThreads]
  split
  case isTrue hShort => exact ⟨iff_of_true rfl (.inl hShort), fun _ hTold => by cases hTold⟩
  case isFalse hFull =>
    split
    case isTrue hNone => exact ⟨iff_of_true rfl (.inr hNone), fun _ hTold => by cases hTold⟩
    case isFalse hSome =>
      refine ⟨iff_of_false (Option.some_ne_none _) (not_or.mpr ⟨hFull, hSome⟩), fun a hTold => ?_⟩
      obtain rfl := Option.some.inj hTold
      exact ⟨recorded hSome hStart _ _, named pid release record hPath _, metered pid release host _ _⟩

/-- The record of a process with two threads, whose number of page-ins is out of range. -/
def shellRecord : Bytes :=
  ((((Bytes.overwrite (.replicate 232 0) 16 [1]).overwrite 48 [0x73, 0x68]).overwrite 188 [3]).overwrite
    192 [0xff, 0xff, 0xff, 0xff]).overwrite 220 [2]

/-- A kernel that tells the record and what the process has read, but not its path. -/
def shell : Host Kernel where
  kernel := {
    replies := [(.processInfo 7 2, .always (.data shellRecord none)),
      (.resourceUsage 7 2, .always (.data (.replicate 144 0 ++ [5]) none))]
    sizes := []
    users := []
    groups := []
    clock := (nanoseconds, 0)
    timebase := .forever
    argumentLimit := .forever
    ownPid := 1 }
  clock := 0
  journal := []

theorem attributes_of_record_shell :
    shell.kernel.filled (.processInfo 7 2) 232 = shellRecord ∧
      shell.kernel.returned (.processInfo 7 2) 232 = 232 ∧
      shellRecord.wordAt 120 8 * 1000 + shellRecord.wordAt 128 8 / 1000 < 2 ^ 64 ∧
      shell.kernel.returned (.processPath 7) 4096 ≤ 4096 ∧ Counts shell.kernel 7 ⟨10, 9⟩ ∧
      ∃ a, ((attributes 7 ⟨10, 9⟩).on shell).1 = .ok (some a) ∧ a.name = "sh" ∧
        a.parent.toInt = 1 ∧ a.threads.toNat = 2 ∧ a.majorFaults.toNat = 0 ∧
        a.minorFaults.toNat = 3 ∧ a.bytesRead.toNat = 5 := by
  have hRecord : shell.kernel.filled (.processInfo 7 2) 232 = shellRecord := by decide +kernel
  have hFull : shell.kernel.returned (.processInfo 7 2) 232 = 232 := by decide +kernel
  have hStart : shellRecord.wordAt 120 8 * 1000 + shellRecord.wordAt 128 8 / 1000 < 2 ^ 64 := by
    decide +kernel
  have hPath : shell.kernel.returned (.processPath 7) 4096 ≤ 4096 := by decide
  have hCounts : Counts shell.kernel 7 ⟨10, 9⟩ := ⟨by decide, by decide⟩
  obtain ⟨told, hTold, hNone, hSome⟩ := attributes_of_record 7 ⟨10, 9⟩ shell hRecord hStart hPath
  cases told with
  | none =>
      have hThreads : shellRecord.signedAt 220 = 2 := by decide +kernel
      have hNothing := hNone.mp rfl
      omega
  | some a =>
      obtain ⟨hWords, ⟨hNoPath, base, hBase, hName⟩, hUsage⟩ := hSome a rfl
      rw [show a.path = "" from hNoPath] at hBase
      have hEmpty : base = [] := by
        generalize hText : "".toList = text at hBase
        cases hBase with
        | whole => exact hText.symm
        | behind => simp at hText
      have hCommand : Text.cString ((shellRecord.drop 48).take 16) = "sh" := by decide +kernel
      have hParent : shellRecord.signedAt 16 = 1 := by decide +kernel
      have hThreads : shellRecord.signedAt 220 = 2 := by decide +kernel
      have hFaults : shellRecord.signedAt 188 = 3 := by decide +kernel
      have hPageIns : shellRecord.signedAt 192 = -1 := by decide +kernel
      have hRead : (shell.kernel.filled (.resourceUsage 7 2) 160).wordAt 144 8 = 5 := by decide +kernel
      have hWordThreads := hWords.threads
      have hWordMajor := hWords.majorFaults
      have hWordFaults := hWords.faults
      rw [hEmpty, if_pos rfl, hCommand] at hName
      exact ⟨hRecord, hFull, hStart, hPath, hCounts, a, hTold, hName, hWords.parent.trans hParent,
        by omega, by omega, by omega, (hUsage.counted hCounts).1.trans hRead⟩

end ProcessCensus.Darwin
