import ProcessCensus.Darwin.Source
import ProcessCensus.Proofs.Bytes
import ProcessCensus.Proofs.Run

/-!
How parameters of a Darwin kernel are read. Main statements: an answer that fits in the buffer is read
whole, and so is the blob that tells how a process was started, whether or not the largest size of such
blobs has been asked for before.
-/

namespace ProcessCensus.Darwin

namespace Kernel

variable {kernel : Kernel} {call other : Call} {content : Bytes}

/-- The kernel after a call has used up an answer. -/
def answered (kernel : Kernel) (call : Call) : Kernel :=
  { kernel with replies := useUp call kernel.replies }

/-- The next answer to a call is this content, and its length is the count that goes with it. -/
def Answers (kernel : Kernel) (call : Call) (content : Bytes) : Prop :=
  ∃ count, (kernel.script? call).bind Script.peek? = some (.data content count) ∧
    count.getD content.length = content.length

/-- A call uses up answers of its own only. -/
theorem script?_answered (hOther : other ≠ call) :
    (kernel.answered call).script? other = kernel.script? other := by
  simp only [script?, answered, useUp]
  induction kernel.replies with
  | nil => rfl
  | cons reply replies ih =>
      obtain ⟨key, script⟩ := reply
      by_cases hKey : key = call
      · subst hKey
        simp [List.lookup_cons, beq_eq_false_iff_ne.mpr hOther, ih]
      · simp [List.lookup_cons, hKey, ih]

theorem Answers.of_script?_eq {after : Kernel} (hAnswers : kernel.Answers call content)
    (hScript : after.script? call = kernel.script? call) : after.Answers call content := by
  rwa [Answers, hScript]

/-- An answer that fits in the buffer is written to it whole. -/
theorem Answers.perform (hAnswers : kernel.Answers call content) {capacity : Nat}
    (hFits : content.length ≤ capacity) :
    kernel.perform call capacity = (.ok ⟨content, content.length⟩, kernel.answered call) := by
  obtain ⟨count, hScript, hCount⟩ := hAnswers
  rw [Kernel.perform, hScript]
  simp only [List.take_of_length_le hFits, hCount]
  rfl

end Kernel

variable {host : Host Kernel} {call : Call} {content : Bytes} {limit : Int32}

theorem perform_on (hAnswers : host.kernel.Answers call content) {capacity : Nat}
    (hFits : content.length ≤ capacity) (name : String) :
    (perform name call capacity).outcome.on host =
      (.ok (.ok ⟨content, content.length⟩), { host with kernel := host.kernel.answered call }) := by
  rw [perform, Attempt.outcome_call, Run.on_call, hAnswers.perform hFits]
  rfl

theorem toList_buffer {capacity : Nat} (hContent : content.length = capacity) (count : Int) :
    (Written.buffer ⟨content, count⟩ capacity).toList = content := by
  subst hContent
  simp [Written.buffer, Sizing.Buffer.ofWritten, Sizing.Buffer.toList]

theorem numberParameter_on {name : String} (hName : checkName name = .ok ())
    (hAnswers : host.kernel.Answers (.parameter name) content) :
    (numberParameter name content.length).outcome.on host =
      (.ok (.ok (Bytes.toNat content)),
        { host with kernel := host.kernel.answered (.parameter name) }) := by
  have hChecked : (Attempt.ofExcept (checkName name)).outcome.on host = (.ok (.ok ()), host) := by
    rw [hName]
    rfl
  rw [numberParameter, Attempt.on_bind_of_eq hChecked,
    Attempt.on_bind_of_eq (perform_on hAnswers Nat.le.refl _), toList_buffer rfl]
  rfl

theorem ofNat_toNat_toUInt32 (n : Int32) : Int32.ofNat n.toUInt32.toNat = n := by
  rw [← UInt32.toInt32_ofNat', UInt32.ofNat_toNat, Int32.toInt32_toUInt32]

theorem intParameter_on {name : String} (hName : checkName name = .ok ()) {value : Int32}
    (hAnswers : host.kernel.Answers (.parameter name) (Bytes.ofNat 4 value.toUInt32.toNat))
    (fallback : Int32) :
    (intParameter name fallback).on host =
      (.ok value, { host with kernel := host.kernel.answered (.parameter name) }) := by
  have hNumber := numberParameter_on hName hAnswers
  rw [Bytes.length_ofNat, Bytes.toNat_ofNat (UInt32.toNat_lt _)] at hNumber
  refine Attempt.on_recover_of_eq ?_ _
  rw [Attempt.outcome_map, Run.on_map, hNumber, ← ofNat_toNat_toUInt32 value]
  simp

/-- The largest size of a blob: it has been asked for before, or the kernel tells it. -/
def Kernel.Limits (kernel : Kernel) (limit : Int32) : Prop :=
  kernel.argumentLimit.fresh? 0 = some limit ∨
    kernel.argumentLimit.fresh? 0 = none ∧
      kernel.Answers (.parameter "kern.argmax") (Bytes.ofNat 4 limit.toUInt32.toNat)

theorem argumentLimit_on (hLimits : host.kernel.Limits limit) :
    ∃ after, argumentLimit.on host = (.ok limit, after) ∧
      ∀ call ≠ .parameter "kern.argmax", after.kernel.script? call = host.kernel.script? call := by
  rw [argumentLimit, Run.on_bind_of_eq (Run.on_kernel host)]
  rcases hLimits with hKnown | ⟨hUnknown, hAnswers⟩
  · rw [Run.on_bind_of_eq (Memo.on_obtain_of_fresh hKnown _)]
    exact ⟨host, rfl, fun _ _ => rfl⟩
  · have hAsked := intParameter_on (by decide) hAnswers 0
    rw [Run.on_bind_of_eq (Memo.on_obtain_of_stale hUnknown hAsked)]
    exact ⟨_, rfl, fun call hCall => Kernel.script?_answered hCall⟩

theorem addressName_argumentsAddress_ne (pid : Int32) :
    addressName (argumentsAddress pid) ≠ "kern.argmax" := by
  have hOne : toString (1 : Int32) = "1" := by decide
  intro hName
  have hFirst := congrArg (·.toList.head?) hName
  simp [addressName, argumentsAddress, String.intercalate_cons_cons, hOne] at hFirst

theorem addressedParameter_on {address : List Int32} {capacity : Nat}
    (hAnswers : host.kernel.Answers (.parameter (addressName address)) content)
    (hFits : content.length ≤ capacity) :
    ∃ answer after, (addressedParameter address capacity).outcome.on host = (.ok (.ok answer), after) ∧
      answer.written = content ∧ answer.length = content.length := by
  rw [addressedParameter, Attempt.on_bind_of_eq (perform_on hAnswers hFits _)]
  refine ⟨_, _, rfl, ?_, ?_⟩
  · simp [Written.buffer, Sizing.Buffer.ofWritten, hFits]
  · simp [Written.buffer, Sizing.Buffer.ofWritten, hFits]

theorem blobIn_of_written {answer : Sizing.Buffer UInt8}
    (hLength : answer.length = answer.written.length) : blobIn answer = answer.written := by
  rw [blobIn, Sizing.Buffer.slice_eq, Sizing.Buffer.toList, hLength, List.drop_zero, Nat.sub_self,
    List.replicate_zero, List.append_nil, List.take_of_length_le (by omega)]

/-- What a proper blob says is what is told about the process, if the blob is not larger than the
largest size. -/
theorem invocation_on {pid : Int32} {blob : Bytes} {value : Invocation}
    (hBlob : Invocation.ofBlob blob = .ok value)
    (hAnswers : host.kernel.Answers (.parameter (addressName (argumentsAddress pid))) blob)
    (hLimits : host.kernel.Limits limit) (hFits : blob.length ≤ limit.toNatClampNeg) :
    ((invocation pid).on host).1 = .ok value := by
  have hPos : ¬limit ≤ 0 := by
    intro hNone
    have hZero : limit.toNatClampNeg = 0 := by
      rw [Int32.toNatClampNeg]
      exact Int.toNat_of_nonpos (Int32.le_iff_toInt_le.mp hNone)
    obtain rfl := List.length_eq_zero_iff.mp (Nat.le_zero.mp (hZero ▸ hFits))
    cases hBlob
  obtain ⟨after, hLimit, hScripts⟩ := argumentLimit_on hLimits
  have hOther : Call.parameter (addressName (argumentsAddress pid)) ≠ .parameter "kern.argmax" :=
    fun hEq => addressName_argumentsAddress_ne pid (Call.parameter.inj hEq)
  obtain ⟨answer, last, hAnswer, hWritten, hLength⟩ :=
    addressedParameter_on (hAnswers.of_script?_eq (hScripts _ hOther)) hFits
  rw [invocation, Run.on_bind_of_eq hLimit, if_neg hPos, Run.on_bind_of_eq hAnswer]
  have hRead : (Invocation.readBlob pid blob).on last = (.ok value, last) := by
    rw [Invocation.readBlob, hBlob]
    exact Attempt.on_recover_of_eq rfl _
  simp only [blobIn_of_written (hLength.trans (by rw [hWritten])), hWritten, hRead]

end ProcessCensus.Darwin
