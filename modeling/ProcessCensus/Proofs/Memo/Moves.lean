import ProcessCensus.Memo.Machine
import Mathlib.Data.List.Basic

/-!
What one event can do to a machine. Everything that holds of all orders of steps goes back to these
cases.
-/

namespace ProcessCensus.Memo

variable {α : Type}

/-- No value is published, or the published value has expired. -/
def Stale (memo : Memo α) (now : Nat) : Prop :=
  ∀ slot ∈ memo.slot, slot.isFresh now = false

theorem isFresh_iff {slot : Slot α} {now : Nat} :
    slot.isFresh now = true ↔ ∀ expiry, slot.expiresAt = some expiry → now < expiry := by
  cases hExpiry : slot.expiresAt with
  | none => simp [Slot.isFresh, hExpiry]
  | some expiry => simp [Slot.isFresh, hExpiry]

theorem fresh?_eq_none_iff {memo : Memo α} {now : Nat} :
    memo.fresh? now = none ↔ memo.Stale now := by
  cases hSlot : memo.slot with
  | none => simp [fresh?, Stale, hSlot]
  | some slot => simp [fresh?, Stale, hSlot, Option.filter]

theorem Stale.fresh?_ne_some {memo : Memo α} {now : Nat} (hStale : memo.Stale now) (value : α) :
    memo.fresh? now ≠ some value := by
  rw [fresh?_eq_none_iff.mpr hStale]
  exact (Option.some_ne_none value).symm

/-- A fresh value is the published one. -/
theorem current?_of_fresh? {memo : Memo α} {now : Nat} {value : α}
    (hFresh : memo.fresh? now = some value) : memo.current? = some value := by
  cases hSlot : memo.slot with
  | none => simp [fresh?, hSlot] at hFresh
  | some slot =>
      simp only [fresh?, hSlot, Option.filter, current?, Option.map_some] at hFresh ⊢
      split at hFresh
      · exact hFresh
      · simp at hFresh

theorem Stale.mono {memo : Memo α} {now later : Nat} (hStale : memo.Stale now)
    (hLe : now ≤ later) : memo.Stale later := by
  intro slot hSlot
  refine Bool.eq_false_iff.mpr fun hFresh => ?_
  refine Bool.eq_false_iff.mp (hStale slot hSlot) (isFresh_iff.mpr fun expiry hExpiry => ?_)
  exact Nat.lt_of_le_of_lt hLe (isFresh_iff.mp hFresh expiry hExpiry)

theorem stale_iff_of_slot {memo : Memo α} {value : α} {expiry now : Nat}
    (hSlot : memo.slot = some ⟨value, some expiry⟩) : memo.Stale now ↔ expiry ≤ now := by
  simp [Stale, hSlot, Slot.isFresh]

theorem stale_expire (memo : Memo α) (now : Nat) : (memo.expire now).Stale now := by
  intro slot hSlot
  obtain ⟨old, -, rfl⟩ := Option.map_eq_some_iff.mp (show memo.slot.map _ = some slot from hSlot)
  simp [Slot.isFresh]

/-- The place of a stage on a caller's way, which never leads back. -/
def Stage.rank : Stage α → Nat
  | .checking => 0
  | .trying => 1
  | .reading => 2
  | .waiting => 3
  | .rechecking => 4
  | .starting => 5
  | .computing _ => 6
  | .done _ | .broken => 7

namespace Machine

/-- The transitions of a caller, by its stage before and after. -/
inductive Moves (supply : Nat → α) (machine : Machine α) (caller : Nat) :
    Stage α → Stage α → Machine α → Prop where
  | hit {value : α} (hFresh : machine.memo.fresh? machine.clock = some value) :
      Moves supply machine caller .checking (.done value) (machine.move caller (.done value))
  | miss (hStale : machine.memo.Stale machine.clock) :
      Moves supply machine caller .checking .trying (machine.move caller .trying)
  | lock (hFree : machine.holder = none) :
      Moves supply machine caller .trying .rechecking
        ({ machine with holder := some caller }.move caller .rechecking)
  | taken {other : Nat} (hTaken : machine.holder = some other) :
      Moves supply machine caller .trying .reading (machine.move caller .reading)
  | rehit {value : α} (hFresh : machine.memo.fresh? machine.clock = some value) :
      Moves supply machine caller .rechecking (.done value)
        ({ machine with holder := none }.move caller (.done value))
  | remiss (hStale : machine.memo.Stale machine.clock) :
      Moves supply machine caller .rechecking .starting (machine.move caller .starting)
  | launch : Moves supply machine caller .starting (.computing (machine.calls + 1))
      ({ machine with calls := machine.calls + 1 }.move caller (.computing (machine.calls + 1)))
  | publish {call : Nat} (hDate : machine.canDate = true) :
      Moves supply machine caller (.computing call) (.done (supply call))
        ({ machine with
          memo := machine.memo.publish machine.clock (supply call)
          holder := none }.move caller (.done (supply call)))
  | breakOff {call : Nat} (hDate : machine.canDate = false) :
      Moves supply machine caller (.computing call) .broken
        ({ machine with holder := none }.move caller .broken)
  | read {value : α} (hCurrent : machine.memo.current? = some value) :
      Moves supply machine caller .reading (.done value) (machine.move caller (.done value))
  | wait (hEmpty : machine.memo.slot = none) :
      Moves supply machine caller .reading .waiting (machine.move caller .waiting)
  | acquire (hFree : machine.holder = none) :
      Moves supply machine caller .waiting .rechecking
        ({ machine with holder := some caller }.move caller .rechecking)

theorem moves_of_stepFrom {supply : Nat → α} {machine next : Machine α} {caller : Nat}
    {stage : Stage α} (hStep : machine.stepFrom supply caller stage = some next) :
    ∃ after, Moves supply machine caller stage after next := by
  cases stage with
  | checking =>
      cases hFresh : machine.memo.fresh? machine.clock with
      | none =>
          simp only [stepFrom, hFresh, Option.some.injEq] at hStep
          subst hStep
          exact ⟨_, .miss (fresh?_eq_none_iff.mp hFresh)⟩
      | some value =>
          simp only [stepFrom, hFresh, Option.some.injEq] at hStep
          subst hStep
          exact ⟨_, .hit hFresh⟩
  | trying =>
      cases hHolder : machine.holder with
      | none =>
          simp only [stepFrom, hHolder, Option.some.injEq] at hStep
          subst hStep
          exact ⟨_, .lock hHolder⟩
      | some other =>
          simp only [stepFrom, hHolder, Option.some.injEq] at hStep
          subst hStep
          exact ⟨_, .taken hHolder⟩
  | rechecking =>
      cases hFresh : machine.memo.fresh? machine.clock with
      | none =>
          simp only [stepFrom, hFresh, Option.some.injEq] at hStep
          subst hStep
          exact ⟨_, .remiss (fresh?_eq_none_iff.mp hFresh)⟩
      | some value =>
          simp only [stepFrom, hFresh, Option.some.injEq] at hStep
          subst hStep
          exact ⟨_, .rehit hFresh⟩
  | starting =>
      simp only [stepFrom, Option.some.injEq] at hStep
      subst hStep
      exact ⟨_, .launch⟩
  | computing call =>
      cases hDate : machine.canDate with
      | false =>
          simp only [stepFrom, hDate, Bool.false_eq_true, if_false, Option.some.injEq] at hStep
          subst hStep
          exact ⟨_, .breakOff hDate⟩
      | true =>
          simp only [stepFrom, hDate, if_true, Option.some.injEq] at hStep
          subst hStep
          exact ⟨_, .publish hDate⟩
  | reading =>
      cases hCurrent : machine.memo.current? with
      | none =>
          simp only [stepFrom, hCurrent, Option.some.injEq] at hStep
          subst hStep
          exact ⟨_, .wait (Option.map_eq_none_iff.mp hCurrent)⟩
      | some value =>
          simp only [stepFrom, hCurrent, Option.some.injEq] at hStep
          subst hStep
          exact ⟨_, .read hCurrent⟩
  | waiting =>
      cases hHolder : machine.holder with
      | none =>
          simp only [stepFrom, hHolder, Option.some.injEq] at hStep
          subst hStep
          exact ⟨_, .acquire hHolder⟩
      | some other => simp [stepFrom, hHolder] at hStep
  | done value => simp [stepFrom] at hStep
  | broken => simp [stepFrom] at hStep

/-- The caller has come to this stage. -/
def At (machine : Machine α) (caller : Nat) (stage : Stage α) : Prop :=
  machine.callers[caller]? = some stage

theorem At.unique {machine : Machine α} {caller : Nat} {first second : Stage α}
    (hFirst : machine.At caller first) (hSecond : machine.At caller second) : first = second :=
  Option.some.inj (hFirst.symm.trans hSecond)

theorem exists_at {machine : Machine α} {caller : Nat} (hLt : caller < machine.callers.length) :
    ∃ stage, machine.At caller stage :=
  ⟨_, List.getElem?_eq_getElem hLt⟩

theorem At.mem {machine : Machine α} {caller : Nat} {stage : Stage α}
    (hAt : machine.At caller stage) : stage ∈ machine.callers :=
  List.mem_of_getElem? hAt

theorem At.lt_length {machine : Machine α} {caller : Nat} {stage : Stage α}
    (hAt : machine.At caller stage) : caller < machine.callers.length :=
  (List.getElem?_eq_some_iff.mp hAt).1

/-- What an event does to a machine. -/
inductive Happens (supply : Nat → α) (machine : Machine α) : Event → Machine α → Prop where
  | arrive : Happens supply machine .arrive machine.arrive
  | expire : Happens supply machine .expire machine.expire
  | advance (milliseconds : Nat) :
      Happens supply machine (.advance milliseconds) (machine.advance milliseconds)
  | step {caller : Nat} {old new : Stage α} {next : Machine α} (hOld : machine.At caller old)
      (hMoves : Moves supply machine caller old new next) :
      Happens supply machine (.step caller) next

theorem happens_of_apply {supply : Nat → α} {machine next : Machine α} {event : Event}
    (hApply : machine.apply supply event = some next) : Happens supply machine event next := by
  cases event with
  | arrive =>
      obtain rfl := Option.some.inj hApply
      exact .arrive
  | expire =>
      obtain rfl := Option.some.inj hApply
      exact .expire
  | advance milliseconds =>
      obtain rfl := Option.some.inj hApply
      exact .advance milliseconds
  | step caller =>
      obtain ⟨old, hOld, hStep⟩ := Option.bind_eq_some_iff.mp hApply
      obtain ⟨new, hMoves⟩ := moves_of_stepFrom hStep
      exact .step hOld hMoves

/-- A new caller is about to check, and all others stay where they are. -/
theorem at_arrive {machine : Machine α} {caller : Nat} {stage : Stage α} :
    machine.arrive.At caller stage ↔
      machine.At caller stage ∨ caller = machine.callers.length ∧ stage = .checking := by
  rw [At, At, arrive, List.getElem?_append]
  split
  · rename_i hOld
    simp [Nat.ne_of_lt hOld]
  · rename_i hNew
    rw [List.getElem?_eq_none (Nat.not_lt.mp hNew), List.getElem?_singleton]
    by_cases hLast : caller = machine.callers.length
    · simp [hLast, eq_comm]
    · have hPast : caller - machine.callers.length ≠ 0 := by omega
      simp [hLast, hPast]

/-- The caller who moves is at its new stage, and all others stay where they are. -/
theorem at_moved {machine next : Machine α} {caller other : Nat} {old new stage : Stage α}
    (hOld : machine.At caller old) (hCallers : next.callers = machine.callers.set caller new) :
    next.At other stage ↔
      other = caller ∧ stage = new ∨ other ≠ caller ∧ machine.At other stage := by
  rw [At, At, hCallers, List.getElem?_set]
  by_cases hSame : caller = other
  · rw [if_pos hSame, if_pos (hSame ▸ hOld.lt_length), Option.some.injEq]
    simp [hSame.symm, eq_comm]
  · rw [if_neg hSame]
    simp [Ne.symm hSame]

variable {supply : Nat → α} {machine next : Machine α} {event : Event} {caller : Nat}
  {old new stage : Stage α}

theorem Moves.callers_eq (hMoves : Moves supply machine caller old new next) :
    next.callers = machine.callers.set caller new := by
  cases hMoves <;> rfl

theorem Moves.at_new (hMoves : Moves supply machine caller old new next)
    (hOld : machine.At caller old) : next.At caller new :=
  (at_moved hOld hMoves.callers_eq).mpr (.inl ⟨rfl, rfl⟩)

theorem Moves.clock_eq (hMoves : Moves supply machine caller old new next) :
    next.clock = machine.clock := by
  cases hMoves <;> rfl

theorem Happens.clock_le (hHappens : Happens supply machine event next) :
    machine.clock ≤ next.clock := by
  cases hHappens with
  | arrive => exact Nat.le_refl _
  | expire => exact Nat.le_refl _
  | advance milliseconds => exact Nat.le_add_right _ _
  | step hOld hMoves => exact Nat.le_of_eq hMoves.clock_eq.symm

/-- Only a caller about to start the supplier does so, and then it computes. -/
theorem Happens.calls_cases (hHappens : Happens supply machine event next) :
    next.calls = machine.calls ∨
      next.calls = machine.calls + 1 ∧ ∃ caller, event = .step caller ∧
        machine.At caller .starting ∧ next.At caller (.computing (machine.calls + 1)) := by
  cases hHappens with
  | arrive => exact .inl rfl
  | expire => exact .inl rfl
  | advance milliseconds => exact .inl rfl
  | step hOld hMoves =>
      cases hMoves with
      | launch => exact .inr ⟨rfl, _, rfl, hOld, (at_moved hOld rfl).mpr (.inl ⟨rfl, rfl⟩)⟩
      | _ => exact .inl rfl

theorem Happens.calls_le (hHappens : Happens supply machine event next) :
    machine.calls ≤ next.calls := by
  rcases hHappens.calls_cases with hCalls | ⟨hCalls, -⟩ <;> omega

theorem Happens.length_le (hHappens : Happens supply machine event next) :
    machine.callers.length ≤ next.callers.length := by
  cases hHappens with
  | arrive => simp [Machine.arrive]
  | expire => exact Nat.le_refl _
  | advance milliseconds => exact Nat.le_refl _
  | step hOld hMoves =>
      exact Nat.le_of_eq (by rw [hMoves.callers_eq, List.length_set])

theorem Happens.horizon_eq (hHappens : Happens supply machine event next) :
    next.horizon = machine.horizon := by
  cases hHappens with
  | arrive => rfl
  | expire => rfl
  | advance milliseconds => rfl
  | step hOld hMoves => cases hMoves <;> rfl

theorem Happens.ttl_eq (hHappens : Happens supply machine event next) :
    next.memo.ttl = machine.memo.ttl := by
  cases hHappens with
  | arrive => rfl
  | expire => rfl
  | advance milliseconds => rfl
  | step hOld hMoves => cases hMoves <;> rfl

theorem canDate_iff :
    machine.canDate = true ↔ ∀ ttl ∈ machine.memo.ttl, machine.clock + ttl ≤ machine.horizon := by
  cases hTtl : machine.memo.ttl <;> simp [canDate, hTtl]

theorem canDate_eq_false_iff :
    machine.canDate = false ↔ ∃ ttl ∈ machine.memo.ttl, machine.horizon < machine.clock + ttl := by
  cases hTtl : machine.memo.ttl <;> simp [canDate, hTtl]

/-- What the clock cannot tell it cannot tell later either. -/
theorem Happens.canDate_eq_false (hHappens : Happens supply machine event next)
    (hDate : machine.canDate = false) : next.canDate = false := by
  obtain ⟨ttl, hTtl, hLate⟩ := canDate_eq_false_iff.mp hDate
  refine canDate_eq_false_iff.mpr ⟨ttl, hHappens.ttl_eq ▸ hTtl, ?_⟩
  rw [hHappens.horizon_eq]
  exact Nat.lt_of_lt_of_le hLate (Nat.add_le_add_right hHappens.clock_le ttl)

/-- How a caller can have come to its stage: it was there, has just arrived or has just moved. -/
theorem Happens.at_cases (hHappens : Happens supply machine event next)
    (hAt : next.At caller stage) :
    machine.At caller stage ∨
      event = .arrive ∧ caller = machine.callers.length ∧ stage = .checking ∨
      event = .step caller ∧
        ∃ old, machine.At caller old ∧ Moves supply machine caller old stage next := by
  cases hHappens with
  | arrive =>
      rcases at_arrive.mp hAt with hBefore | ⟨hLast, hStage⟩
      · exact .inl hBefore
      · exact .inr (.inl ⟨rfl, hLast, hStage⟩)
  | expire => exact .inl hAt
  | advance milliseconds => exact .inl hAt
  | step hOld hMoves =>
      rcases (at_moved hOld hMoves.callers_eq).mp hAt with ⟨rfl, rfl⟩ | ⟨-, hBefore⟩
      · exact .inr (.inr ⟨rfl, _, hOld, hMoves⟩)
      · exact .inl hBefore

/-- A caller stays where it is through the events that are not its own. -/
theorem Happens.at_of_ne (hHappens : Happens supply machine event next)
    (hAt : machine.At caller stage) (hEvent : event ≠ .step caller) : next.At caller stage := by
  cases hHappens with
  | arrive => exact at_arrive.mpr (.inl hAt)
  | expire => exact hAt
  | advance milliseconds => exact hAt
  | step hOld hMoves =>
      refine (at_moved hOld hMoves.callers_eq).mpr (.inr ⟨?_, hAt⟩)
      rintro rfl
      exact hEvent rfl

/-- A step is a move from the caller's stage. -/
theorem Happens.moves (hHappens : Happens supply machine (.step caller) next) :
    ∃ old new, machine.At caller old ∧ next.At caller new ∧
      Moves supply machine caller old new next := by
  cases hHappens with
  | step hOld hMoves =>
      exact ⟨_, _, hOld, hMoves.at_new hOld, hMoves⟩

/-- Only a caller whose supplier has answered changes the memo. -/
theorem Moves.memo_eq (hMoves : Moves supply machine caller old new next)
    (hOld : ∀ call, old ≠ .computing call) : next.memo = machine.memo := by
  cases hMoves with
  | publish => exact absurd rfl (hOld _)
  | _ => rfl

/-- What a caller gets is what is published then. -/
theorem Moves.current?_eq {value : α}
    (hMoves : Moves supply machine caller old (.done value) next) :
    next.memo.current? = some value := by
  cases hMoves with
  | hit hFresh => exact current?_of_fresh? hFresh
  | rehit hFresh => exact current?_of_fresh? hFresh
  | publish => rfl
  | read hCurrent => exact hCurrent

theorem Moves.of_computing {call : Nat}
    (hMoves : Moves supply machine caller old (.computing call) next) :
    old = .starting ∧ call = machine.calls + 1 ∧ next.calls = machine.calls + 1 := by
  cases hMoves with
  | launch => exact ⟨rfl, rfl, rfl⟩

theorem Moves.of_reading (hMoves : Moves supply machine caller old .reading next) :
    old = .trying ∧ ∃ other, machine.holder = some other := by
  cases hMoves with
  | taken hTaken => exact ⟨rfl, _, hTaken⟩

theorem Moves.of_waiting (hMoves : Moves supply machine caller old .waiting next) :
    old = .reading ∧ machine.memo.slot = none := by
  cases hMoves with
  | wait hEmpty => exact ⟨rfl, hEmpty⟩

/-- Whoever is broken off has computed a value of which the clock cannot tell when it would
expire. -/
theorem Moves.of_broken (hMoves : Moves supply machine caller old .broken next) :
    (∃ call, old = .computing call) ∧ machine.canDate = false := by
  cases hMoves with
  | breakOff hDate => exact ⟨⟨_, rfl⟩, hDate⟩

/-- Where a caller gets its value from: it looks and finds a fresh one, has computed it, or reads
what is published. -/
theorem Moves.of_done {value : α} (hMoves : Moves supply machine caller old (.done value) next) :
    ¬machine.memo.Stale machine.clock ∨
      (machine.canDate = true ∧ ∃ call, old = .computing call) ∨ old = .reading := by
  cases hMoves with
  | hit hFresh => exact .inl fun hStale => hStale.fresh?_ne_some _ hFresh
  | rehit hFresh => exact .inl fun hStale => hStale.fresh?_ne_some _ hFresh
  | publish hDate => exact .inr (.inl ⟨hDate, _, rfl⟩)
  | read => exact .inr (.inr rfl)

/-- Only a caller who waits for the lock, has its value or was broken off takes no step. -/
theorem stage_of_step_eq_none (hAt : machine.At caller stage)
    (hStep : machine.step supply caller = none) :
    stage = .waiting ∨ (∃ value, stage = .done value) ∨ stage = .broken := by
  rw [step, hAt, Option.bind_some] at hStep
  cases stage with
  | waiting => exact .inl rfl
  | done value => exact .inr (.inl ⟨value, rfl⟩)
  | broken => exact .inr (.inr rfl)
  | starting => cases hStep
  | _ =>
      rw [stepFrom] at hStep
      split at hStep <;> cases hStep

/-- The call that an event brings the answer to. -/
def answers? (machine : Machine α) : Event → Option Nat
  | .step caller =>
    match machine.callers[caller]? with
    | some (.computing call) => some call
    | _ => none
  | _ => none

theorem answers?_eq_some {call : Nat} :
    machine.answers? event = some call ↔
      ∃ caller, event = .step caller ∧ machine.At caller (.computing call) := by
  cases event with
  | step caller =>
      rw [answers?]
      split
      · rename_i other hOther
        simp [At, hOther]
      · rename_i hOther
        simpa [At] using hOther call
  | _ => simp [answers?]

/-- The call whose answer an event publishes. -/
def publishes? (machine : Machine α) (event : Event) : Option Nat :=
  (machine.answers? event).filter fun _ => machine.canDate

theorem publishes?_eq_some {call : Nat} :
    machine.publishes? event = some call ↔
      machine.canDate = true ∧ machine.answers? event = some call := by
  rw [publishes?, Option.filter_eq_some_iff]
  exact and_comm

theorem publishes?_eq_none_of_canDate (hDate : machine.canDate = false) (event : Event) :
    machine.publishes? event = none := by
  rw [publishes?, hDate]
  cases machine.answers? event <;> rfl

theorem publishes?_eq_none_of_answers? (hNone : machine.answers? event = none) :
    machine.publishes? event = none := by
  rw [publishes?, hNone]
  rfl

theorem computing_of_publishes {call : Nat} (hCall : machine.publishes? event = some call) :
    ∃ caller, event = .step caller ∧ machine.At caller (.computing call) :=
  answers?_eq_some.mp (publishes?_eq_some.mp hCall).2

/-- What an event does to the memo. -/
theorem Happens.memo_cases (hHappens : Happens supply machine event next) :
    (∃ call, machine.publishes? event = some call ∧ next.holder = none ∧
      next.memo = machine.memo.publish machine.clock (supply call)) ∨
      machine.publishes? event = none ∧
        (next.memo = machine.memo ∨
          event = .expire ∧ next.memo = machine.memo.expire machine.clock) := by
  cases hHappens with
  | arrive => exact .inr ⟨rfl, .inl rfl⟩
  | expire => exact .inr ⟨rfl, .inr ⟨rfl, rfl⟩⟩
  | advance milliseconds => exact .inr ⟨rfl, .inl rfl⟩
  | @step caller old new _ hOld hMoves =>
      by_cases hComputing : ∃ call, old = .computing call
      · obtain ⟨call, rfl⟩ := hComputing
        cases hMoves with
        | publish hDate =>
            have hAnswers := answers?_eq_some.mpr ⟨_, rfl, hOld⟩
            exact .inl ⟨call, publishes?_eq_some.mpr ⟨hDate, hAnswers⟩, rfl, rfl⟩
        | breakOff hDate => exact .inr ⟨publishes?_eq_none_of_canDate hDate _, .inl rfl⟩
      · refine .inr ⟨Option.eq_none_iff_forall_ne_some.mpr fun call hCall => ?_,
          .inl (hMoves.memo_eq fun call hCall => hComputing ⟨call, hCall⟩)⟩
        obtain ⟨other, hEvent, hAt⟩ := computing_of_publishes hCall
        obtain rfl := Event.step.inj hEvent
        exact hComputing ⟨call, hOld.unique hAt⟩

/-- As long as nothing is published the value stays the same. -/
theorem Happens.current?_eq (hHappens : Happens supply machine event next)
    (hQuiet : machine.publishes? event = none) : next.memo.current? = machine.memo.current? := by
  rcases hHappens.memo_cases with ⟨call, hCall, -⟩ | ⟨-, hMemo | ⟨-, hMemo⟩⟩
  · rw [hQuiet] at hCall
    cases hCall
  · rw [hMemo]
  · simp [hMemo, current?, Memo.expire, Function.comp_def]

/-- As long as nothing is published an expired value stays expired. -/
theorem Happens.stale (hHappens : Happens supply machine event next)
    (hQuiet : machine.publishes? event = none) (hStale : machine.memo.Stale machine.clock) :
    next.memo.Stale next.clock := by
  refine Stale.mono ?_ hHappens.clock_le
  rcases hHappens.memo_cases with ⟨call, hCall, -⟩ | ⟨-, hMemo | ⟨-, hMemo⟩⟩
  · rw [hQuiet] at hCall
    cases hCall
  · exact hMemo ▸ hStale
  · exact hMemo ▸ stale_expire _ _

end Machine

end ProcessCensus.Memo
