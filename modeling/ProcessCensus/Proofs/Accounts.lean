import ProcessCensus.Accounts
import ProcessCensus.Proofs.Run
import Mathlib.Algebra.Order.Ring.Nat

/-!
Asking a database for a name always goes through. The buffer doubles with each call that finds it too
small, up to a limit, and the first other reply decides: a name is found if it fits within the limit.
A database that fails or has no name leaves nothing but a notice.
-/

namespace ProcessCensus.Accounts

/-- Asks a database, and keeps account of the sizes of the buffers it was asked with. -/
def recorded (query : Nat → Reply) (size : Nat) : StateM (List Nat) Reply := do
  modify (· ++ [size])
  return query size

/-- What a reply that is not asked for again says about a name. -/
inductive Tells (call : String) : Reply → Except Failure (Option String) → Prop where
  /-- The call failed, for this or that reason. -/
  | failure {reply : Reply} (hCode : reply.code ≠ 0) :
      Tells call reply (.error (.native call reply.code))
  /-- There is no entry. -/
  | absent : Tells call ⟨0, none⟩ (.ok none)
  /-- There is an entry, but it has no name. -/
  | nameless : Tells call ⟨0, some none⟩ (.ok none)
  | named (name : Bytes) : Tells call ⟨0, some (some name)⟩ (.ok (some (Text.cString name)))

theorem tells_settle (call : String) (reply : Reply) : Tells call reply (settle call reply) := by
  rw [settle]
  split
  case isTrue hCode => exact .failure hCode
  case isFalse hCode =>
    obtain ⟨code, entry⟩ := reply
    obtain rfl : code = 0 := Decidable.of_not_not hCode
    rcases entry with _ | _ | name
    · exact .absent
    · exact .nameless
    · exact .named name

theorem Buffer.size_doubled_mul (buffer : Buffer) (k : Nat) :
    buffer.doubled.size * 2 ^ k = buffer.size * 2 ^ (k + 1) := by
  simp only [doubled]
  rw [Nat.pow_succ', ← Nat.mul_assoc, Nat.mul_comm buffer.size]

/-- Induction along the doubling: what holds of a buffer whenever it holds of the doubled one, if the
buffer may grow, holds of every buffer. -/
@[elab_as_elim]
theorem Buffer.growth {motive : Buffer → Prop}
    (step : ∀ buffer, (buffer.size < maxSize → motive buffer.doubled) → motive buffer)
    (buffer : Buffer) : motive buffer := by
  induction hLeft : maxSize - buffer.size using Nat.strongRecOn generalizing buffer with
  | ind left ih =>
      apply step buffer
      intro hGrow
      have hRoom := buffer.size_pos
      exact ih (maxSize - buffer.doubled.size) (by simp only [doubled]; omega) buffer.doubled rfl

variable {call : String} {query : Nat → Reply} {buffer : Buffer}

theorem recorded_grows (hSmall : (query buffer.size).code = bufferTooSmall)
    (hGrow : buffer.size < maxSize) (sizes : List Nat) :
    (lookUpWith call (recorded query) buffer).run sizes =
      (lookUpWith call (recorded query) buffer.doubled).run (sizes ++ [buffer.size]) := by
  rw [lookUpWith]
  simp [recorded, hSmall, hGrow]

theorem recorded_settles
    (hLast : ¬((query buffer.size).code = bufferTooSmall ∧ buffer.size < maxSize))
    (sizes : List Nat) :
    (lookUpWith call (recorded query) buffer).run sizes =
      (settle call (query buffer.size), sizes ++ [buffer.size]) := by
  rw [lookUpWith]
  simp [recorded, hLast]
  rfl

/-- Keeping account does not change what is found. -/
theorem recorded_fst (call : String) (query : Nat → Reply) (buffer : Buffer) (sizes : List Nat) :
    ((lookUpWith call (recorded query) buffer).run sizes).1 =
      Id.run (lookUpWith call (fun size => pure (query size)) buffer) := by
  induction buffer using Buffer.growth generalizing sizes with
  | step buffer ih =>
      by_cases hMore : (query buffer.size).code = bufferTooSmall ∧ buffer.size < maxSize
      · rw [recorded_grows hMore.1 hMore.2, ih hMore.2]
        conv => rhs; rw [lookUpWith]
        simp [hMore]
      · rw [recorded_settles hMore]
        conv => rhs; rw [lookUpWith]
        simp [hMore]

/-- The reply to the call after `retries` other ones is the last one: the buffers before were all too
small, and could all grow. -/
structure Decides (query : Nat → Reply) (size retries : Nat) : Prop where
  earlier : ∀ k < retries, (query (size * 2 ^ k)).code = bufferTooSmall
  within : ∀ k < retries, size * 2 ^ k < maxSize
  last : (query (size * 2 ^ retries)).code ≠ bufferTooSmall ∨ maxSize ≤ size * 2 ^ retries

theorem Decides.of_last
    (hLast : ¬((query buffer.size).code = bufferTooSmall ∧ buffer.size < maxSize)) :
    Decides query buffer.size 0 where
  earlier k hk := absurd hk (Nat.not_lt_zero k)
  within k hk := absurd hk (Nat.not_lt_zero k)
  last := by
    rw [Nat.pow_zero, Nat.mul_one]
    exact (Decidable.not_and_iff_or_not.mp hLast).imp_right Nat.not_lt.mp

theorem Decides.of_doubled {retries : Nat} (hSmall : (query buffer.size).code = bufferTooSmall)
    (hGrow : buffer.size < maxSize) (hDecides : Decides query buffer.doubled.size retries) :
    Decides query buffer.size (retries + 1) where
  earlier k hk := by
    cases k with
    | zero => simpa using hSmall
    | succ k =>
        have hEarlier := hDecides.earlier k (Nat.lt_of_succ_lt_succ hk)
        rwa [Buffer.size_doubled_mul] at hEarlier
  within k hk := by
    cases k with
    | zero => simpa using hGrow
    | succ k =>
        have hWithin := hDecides.within k (Nat.lt_of_succ_lt_succ hk)
        rwa [Buffer.size_doubled_mul] at hWithin
  last := by
    have hLast := hDecides.last
    rwa [Buffer.size_doubled_mul] at hLast

/-- A run of calls: one of them decides, and the sizes double up to that one. -/
theorem recorded_run (call : String) (query : Nat → Reply) (buffer : Buffer) (sizes : List Nat) :
    ∃ retries, Decides query buffer.size retries ∧
      (lookUpWith call (recorded query) buffer).run sizes =
        (settle call (query (buffer.size * 2 ^ retries)),
          sizes ++ (List.range (retries + 1)).map (buffer.size * 2 ^ ·)) := by
  induction buffer using Buffer.growth generalizing sizes with
  | step buffer ih =>
      by_cases hMore : (query buffer.size).code = bufferTooSmall ∧ buffer.size < maxSize
      · obtain ⟨retries, hDecides, hRun⟩ := ih hMore.2 (sizes ++ [buffer.size])
        refine ⟨retries + 1, .of_doubled hMore.1 hMore.2 hDecides, ?_⟩
        rw [recorded_grows hMore.1 hMore.2, hRun, Buffer.size_doubled_mul,
          @List.range_succ_eq_map (retries + 1)]
        simp [Buffer.size_doubled_mul, Function.comp_def]
      · refine ⟨0, .of_last hMore, ?_⟩
        rw [recorded_settles hMore]
        simp

theorem maxSize_eq : maxSize = Buffer.initial.size * 2 ^ 10 := by decide

/-- The first buffer is doubled ten times at most. -/
theorem Decides.retries_le {retries : Nat}
    (hDecides : Decides query Buffer.initial.size retries) : retries ≤ 10 := by
  cases retries with
  | zero => exact Nat.zero_le 10
  | succ k =>
      have hWithin := hDecides.within k (Nat.lt_succ_self k)
      rw [maxSize_eq, Nat.mul_lt_mul_left Buffer.initial.size_pos,
        Nat.pow_lt_pow_iff_right (by decide)] at hWithin
      exact hWithin

theorem Decides.size_le {retries : Nat} (hDecides : Decides query Buffer.initial.size retries) :
    Buffer.initial.size * 2 ^ retries ≤ maxSize := by
  rw [maxSize_eq]
  exact Nat.mul_le_mul_left _ (Nat.pow_le_pow_right (by decide) hDecides.retries_le)

/-- The sizes a name is asked for with, and the reply that decides what is found. -/
theorem exists_lookUp (call : String) (query : Nat → Reply) :
    ∃ retries, Decides query Buffer.initial.size retries ∧
      (lookUpWith call (recorded query) .initial).run [] =
        (lookUp call query, (List.range (retries + 1)).map (Buffer.initial.size * 2 ^ ·)) ∧
      lookUp call query = settle call (query (Buffer.initial.size * 2 ^ retries)) := by
  obtain ⟨retries, hDecides, hRun⟩ := recorded_run call query .initial []
  have hFound : lookUp call query = settle call (query (Buffer.initial.size * 2 ^ retries)) := by
    rw [lookUp, ← recorded_fst call query .initial [], hRun]
  exact ⟨retries, hDecides, by rw [hRun, hFound, List.nil_append], hFound⟩

/-- A name is found if the buffer it needs is not larger than the largest one. -/
theorem lookUp_of_need (call : String) {need : Nat} {name : Bytes}
    (hSmall : ∀ size < need, (query size).code = bufferTooSmall)
    (hFits : ∀ size, need ≤ size → query size = ⟨0, some (some name)⟩) :
    lookUp call query =
      if need ≤ maxSize then .ok (some (Text.cString name))
      else .error (.native call bufferTooSmall) := by
  obtain ⟨retries, hDecides, -, hFound⟩ := exists_lookUp call query
  rw [hFound]
  split
  case isTrue hNeed =>
    have hEnough : need ≤ Buffer.initial.size * 2 ^ retries := by
      rcases hDecides.last with hOther | hLargest
      · exact Nat.not_lt.mp fun hLess => hOther (hSmall _ hLess)
      · exact Nat.le_trans hNeed hLargest
    rw [hFits _ hEnough]
    rfl
  case isFalse hNeed =>
    have hCode := hSmall _ (Nat.lt_of_le_of_lt hDecides.size_le (Nat.not_le.mp hNeed))
    rw [settle, hCode]
    rfl

/-- Every way to answer is the way of some database. -/
theorem reply_answering (id : UInt32) (query : Nat → Reply) :
    Database.reply [(id, .answering query)] id = query := by
  funext size
  simp [Database.reply]

variable {κ : Type}

/-- What the caller of a database learns, and what it leaves behind. -/
theorem nameOrNote_on (call : String) (query : Nat → Reply) (notice : Failure → Notice)
    (host : Host κ) :
    (∀ name, lookUp call query = .ok name →
      (nameOrNote call query notice).on host = (.ok name, host)) ∧
    ∀ failure, lookUp call query = .error failure →
      (nameOrNote call query notice).on host =
        (.ok none, { host with journal := notice failure :: host.journal }) := by
  constructor
  · intro name hFound
    rw [nameOrNote, hFound]
    rfl
  · intro failure hFailed
    rw [nameOrNote, hFailed]
    rfl

theorem exists_nameOrNote_on (call : String) (query : Nat → Reply) (notice : Failure → Notice)
    (host : Host κ) :
    ∃ journal, (nameOrNote call query notice).on host =
      (.ok (lookUp call query).toOption.join, { host with journal }) := by
  obtain ⟨hName, hFailure⟩ := nameOrNote_on call query notice host
  cases hFound : lookUp call query with
  | ok name => exact ⟨_, hName name hFound⟩
  | error failure => exact ⟨_, hFailure failure hFound⟩

/-- The name of a user, if the database tells it. -/
def user? (users : Database) (id : UInt32) : Option String :=
  (lookUp "getpwuid_r" (users.reply id)).toOption.join

/-- The name of a group, if the database tells it. -/
def group? (groups : Database) (id : UInt32) : Option String :=
  (lookUp "getgrgid_r" (groups.reply id)).toOption.join

theorem userName_on (users : Database) (id : UInt32) (host : Host κ) :
    ∃ journal, (userName users id).on host = (.ok (user? users id), { host with journal }) :=
  exists_nameOrNote_on _ _ _ host

theorem groupName_on (groups : Database) (id : UInt32) (host : Host κ) :
    ∃ journal, (groupName groups id).on host = (.ok (group? groups id), { host with journal }) :=
  exists_nameOrNote_on _ _ _ host

end ProcessCensus.Accounts
