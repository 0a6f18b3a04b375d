import ProcessCensus.Proofs.Memo.Guarded

/-!
Histories of a memo: the machine at every moment, and the event that leads to the next moment. Any
number of callers may arrive and take their steps in any order, with expiry and the clock in
between. A run that ends is a history in which the clock stands still from then on.
-/

namespace ProcessCensus.Memo

variable {α : Type}

namespace Machine

/-- The machine after some events, if all of them can take place. -/
def after (supply : Nat → α) (machine : Machine α) (events : List Event) : Option (Machine α) :=
  events.foldlM (apply supply) machine

theorem after_take_succ {supply : Nat → α} {machine : Machine α} {events : List Event} {k : Nat}
    (hLt : k < events.length) :
    machine.after supply (events.take (k + 1)) =
      (machine.after supply (events.take k)).bind (apply supply · events[k]) := by
  rw [after, List.take_succ_eq_append_getElem hLt, List.foldlM_append, after]
  congr 1
  funext middle
  rw [List.foldlM_cons]
  exact bind_pure _

/-- A run goes as far as each of its beginnings does. -/
theorem isSome_after_take {supply : Nat → α} {machine : Machine α} {events : List Event}
    (hAfter : (machine.after supply events).isSome) (k : Nat) :
    (machine.after supply (events.take k)).isSome := by
  rw [← List.take_append_drop k events, after, List.foldlM_append] at hAfter
  obtain ⟨last, hLast⟩ := Option.isSome_iff_exists.mp hAfter
  obtain ⟨middle, hMiddle, -⟩ := Option.bind_eq_some_iff.mp hLast
  exact Option.isSome_iff_exists.mpr ⟨middle, hMiddle⟩

end Machine

open Machine

/-- The moments of a memo with this time to live, whose supplier answers `supply`. -/
structure History (supply : Nat → α) (ttl : Option Nat) where
  /-- The last moment that the clock can tell. -/
  horizon : Nat
  machine : Nat → Machine α
  event : Nat → Event
  starts : machine 0 = .start ttl horizon
  follows : ∀ k, (machine k).apply supply (event k) = some (machine (k + 1))

namespace History

variable {supply : Nat → α} {ttl : Option Nat} (history : History supply ttl)

theorem happens (k : Nat) :
    Happens supply (history.machine k) (history.event k) (history.machine (k + 1)) :=
  happens_of_apply (history.follows k)

theorem guarded (k : Nat) : Guarded (history.machine k) := by
  induction k with
  | zero =>
      rw [history.starts]
      exact .start ttl _
  | succ k ih => exact ih.happens (history.happens k)

theorem clock_mono {j k : Nat} (hLe : j ≤ k) :
    (history.machine j).clock ≤ (history.machine k).clock := by
  induction hLe with
  | refl => exact Nat.le_refl _
  | step _ ih => exact Nat.le_trans ih (history.happens _).clock_le

theorem length_mono {j k : Nat} (hLe : j ≤ k) :
    (history.machine j).callers.length ≤ (history.machine k).callers.length := by
  induction hLe with
  | refl => exact Nat.le_refl _
  | step _ ih => exact Nat.le_trans ih (history.happens _).length_le

theorem calls_mono {j k : Nat} (hLe : j ≤ k) :
    (history.machine j).calls ≤ (history.machine k).calls := by
  induction hLe with
  | refl => exact Nat.le_refl _
  | step _ ih => exact Nat.le_trans ih (history.happens _).calls_le

theorem ttl_eq (k : Nat) : (history.machine k).memo.ttl = ttl := by
  induction k with
  | zero => rw [history.starts]; rfl
  | succ k ih => rw [(history.happens k).ttl_eq, ih]

theorem horizon_eq (k : Nat) : (history.machine k).horizon = history.horizon := by
  induction k with
  | zero => rw [history.starts]; rfl
  | succ k ih => rw [(history.happens k).horizon_eq, ih]

/-- Whether the clock can tell when a value that is published at this moment will expire. -/
theorem canDate_iff {k : Nat} : (history.machine k).canDate = true ↔
    ∀ milliseconds ∈ ttl, (history.machine k).clock + milliseconds ≤ history.horizon := by
  rw [Machine.canDate_iff, history.ttl_eq, history.horizon_eq]

theorem canDate_eq_false_mono {j k : Nat} (hLe : j ≤ k)
    (hDate : (history.machine j).canDate = false) : (history.machine k).canDate = false := by
  induction hLe with
  | refl => exact hDate
  | step _ ih => exact (history.happens _).canDate_eq_false ih

/-- The caller arrives at this moment. -/
structure Starts (caller moment : Nat) : Prop where
  event : history.event moment = .arrive
  last : (history.machine moment).callers.length = caller

/-- Who is at some stage has arrived before. -/
theorem starts_of_at {caller k : Nat} {stage : Stage α} (hAt : (history.machine k).At caller stage) :
    ∃ start < k, history.Starts caller start := by
  induction k generalizing stage with
  | zero =>
      rw [history.starts] at hAt
      cases hAt
  | succ k ih =>
      rcases (history.happens k).at_cases hAt with hBefore | ⟨hEvent, hLast, -⟩ | ⟨-, old, hOld, -⟩
      · obtain ⟨start, hStart, hStarts⟩ := ih hBefore
        exact ⟨start, Nat.lt_succ_of_lt hStart, hStarts⟩
      · exact ⟨k, Nat.lt_succ_self k, hEvent, hLast.symm⟩
      · obtain ⟨start, hStart, hStarts⟩ := ih hOld
        exact ⟨start, Nat.lt_succ_of_lt hStart, hStarts⟩

/-- Whoever has not arrived is at no stage. -/
theorem lt_of_at {caller j k : Nat} {stage : Stage α}
    (hLength : (history.machine j).callers.length ≤ caller)
    (hAt : (history.machine k).At caller stage) : j < k := by
  refine Nat.not_le.mp fun hLe => ?_
  have hLt := hAt.lt_length
  have hMono := history.length_mono hLe
  omega

/-- The step by which a caller has come to its stage, unless it has just arrived. -/
theorem moved_of_at {caller k : Nat} {stage : Stage α} (hAt : (history.machine k).At caller stage)
    (hStage : stage ≠ .checking) :
    ∃ j < k, history.event j = .step caller ∧ ∃ old, (history.machine j).At caller old ∧
      Moves supply (history.machine j) caller old stage (history.machine (j + 1)) := by
  induction k with
  | zero =>
      rw [history.starts] at hAt
      cases hAt
  | succ k ih =>
      rcases (history.happens k).at_cases hAt with hBefore | ⟨-, -, hNew⟩ | ⟨hEvent, hMoved⟩
      · obtain ⟨j, hLt, hMoved⟩ := ih hBefore
        exact ⟨j, Nat.lt_succ_of_lt hLt, hMoved⟩
      · exact absurd hNew hStage
      · exact ⟨k, Nat.lt_succ_self k, hEvent, hMoved⟩

/-- A call that was started by some moment, and is in flight later, is in flight at that moment. -/
theorem computing_of_le {caller j k call : Nat} (hLe : j ≤ k)
    (hAt : (history.machine k).At caller (.computing call))
    (hCall : call ≤ (history.machine j).calls) : (history.machine j).At caller (.computing call) := by
  induction hLe with
  | refl => exact hAt
  | @step k hLe ih =>
      rcases (history.happens k).at_cases hAt with hBefore | ⟨-, -, hNew⟩ | ⟨-, old, -, hMoves⟩
      · exact ih hBefore
      · cases hNew
      · have hStarted := hMoves.of_computing.2.1
        have hMono := history.calls_mono hLe
        omega

/-- Whoever was broken off has computed a value of which the clock cannot tell when it would
expire. -/
theorem horizon_lt_of_broken {caller k : Nat} (hAt : (history.machine k).At caller .broken) :
    ∃ milliseconds ∈ ttl, history.horizon < (history.machine k).clock + milliseconds := by
  obtain ⟨j, hLt, -, old, -, hMoves⟩ := history.moved_of_at hAt (by simp)
  have hDate := history.canDate_eq_false_mono (Nat.le_of_lt hLt) hMoves.of_broken.2
  rw [Machine.canDate_eq_false_iff, history.ttl_eq, history.horizon_eq] at hDate
  exact hDate

/-- The call whose answer is published at a moment. -/
def published : Nat → Option Nat
  | 0 => none
  | k + 1 => ((history.machine k).publishes? (history.event k)).or (published k)

theorem published_succ_of_quiet {k : Nat}
    (hQuiet : (history.machine k).publishes? (history.event k) = none) :
    history.published (k + 1) = history.published k := by
  rw [published, hQuiet, Option.none_or]

theorem published_succ_of_publishes {k call : Nat}
    (hCall : (history.machine k).publishes? (history.event k) = some call) :
    history.published (k + 1) = some call := by
  rw [published, hCall, Option.some_or]

/-- What is in the memo is what the supplier answered to that call. -/
theorem current?_eq_map_published (k : Nat) :
    (history.machine k).memo.current? = (history.published k).map supply := by
  induction k with
  | zero => rw [history.starts]; rfl
  | succ k ih =>
      rcases (history.happens k).memo_cases with ⟨call, hCall, -, hMemo⟩ | ⟨hQuiet, -⟩
      · rw [hMemo, history.published_succ_of_publishes hCall]
        rfl
      · rw [(history.happens k).current?_eq hQuiet, history.published_succ_of_quiet hQuiet, ih]

/-- Every call in flight is later than the published one. -/
theorem published_lt {k call : Nat} (hCall : history.published k = some call) :
    call ≤ (history.machine k).calls ∧
      ∀ caller later, (history.machine k).At caller (.computing later) → call < later := by
  induction k with
  | zero => cases hCall
  | succ k ih =>
      have hHappens := history.happens k
      have hGuarded := history.guarded k
      rcases hHappens.memo_cases with ⟨latest, hLatest, hHolder, -⟩ | ⟨hQuiet, -⟩
      · obtain rfl := Option.some.inj ((history.published_succ_of_publishes hLatest).symm.trans hCall)
        obtain ⟨caller, -, hComputing⟩ := computing_of_publishes hLatest
        refine ⟨hGuarded.latest caller latest hComputing ▸ hHappens.calls_le, ?_⟩
        -- Whoever computes holds the lock, and it has just been let go of.
        intro other later hLater
        exact ((history.guarded (k + 1)).not_commits_of_holder_ne hLater (by simp [hHolder])
          trivial).elim
      · rw [history.published_succ_of_quiet hQuiet] at hCall
        obtain ⟨hCalls, hFlight⟩ := ih hCall
        refine ⟨Nat.le_trans hCalls hHappens.calls_le, fun other later hLater => ?_⟩
        rcases hHappens.at_cases hLater with hBefore | ⟨-, -, hNew⟩ | ⟨-, old, hOld, hMoves⟩
        · exact hFlight other later hBefore
        · cases hNew
        · rw [hMoves.of_computing.2.1]
          exact Nat.lt_succ_of_le hCalls

/-- Whatever replaces the published answer is later. -/
theorem published_lt_of_publishes {k call later : Nat} (hCall : history.published k = some call)
    (hLater : (history.machine k).publishes? (history.event k) = some later) : call < later := by
  obtain ⟨caller, -, hComputing⟩ := computing_of_publishes hLater
  exact (history.published_lt hCall).2 caller later hComputing

/-- What is published never gets older. -/
theorem published_mono {j k first : Nat} (hFirst : history.published j = some first)
    (hLe : j ≤ k) : ∃ second, history.published k = some second ∧ first ≤ second := by
  induction hLe with
  | refl => exact ⟨first, hFirst, Nat.le_refl _⟩
  | @step k _ ih =>
      obtain ⟨middle, hMiddle, hOrder⟩ := ih
      rcases (history.happens k).memo_cases with ⟨latest, hLatest, -⟩ | ⟨hQuiet, -⟩
      · have hLt := history.published_lt_of_publishes hMiddle hLatest
        exact ⟨latest, history.published_succ_of_publishes hLatest, by omega⟩
      · exact ⟨middle, (history.published_succ_of_quiet hQuiet).trans hMiddle, hOrder⟩

/-- The history that goes through some events, after which the clock stands still. -/
def ofEvents (horizon : Nat) (events : List Event)
    (hEvents : ((Machine.start ttl horizon).after supply events).isSome) : History supply ttl where
  horizon
  machine k := ((Machine.start ttl horizon).after supply (events.take k)).getD (.start ttl horizon)
  event k := events[k]?.getD (.advance 0)
  starts := rfl
  follows k := by
    obtain ⟨machine, hMachine⟩ := Option.isSome_iff_exists.mp (isSome_after_take hEvents k)
    obtain ⟨next, hNext⟩ := Option.isSome_iff_exists.mp (isSome_after_take hEvents (k + 1))
    rw [hMachine, hNext]
    by_cases hLt : k < events.length
    · rw [after_take_succ hLt, hMachine] at hNext
      rw [List.getElem?_eq_getElem hLt]
      exact hNext
    · have hLe := Nat.not_lt.mp hLt
      rw [List.take_of_length_le hLe] at hMachine
      rw [List.take_of_length_le (Nat.le_succ_of_le hLe), hMachine] at hNext
      rw [List.getElem?_eq_none hLe]
      exact hNext

theorem event_ofEvents_of_le {horizon : Nat} {events : List Event}
    (hEvents : ((Machine.start ttl horizon).after supply events).isSome) {k : Nat}
    (hLe : events.length ≤ k) : (ofEvents horizon events hEvents).event k = .advance 0 := by
  change events[k]?.getD (.advance 0) = .advance 0
  rw [List.getElem?_eq_none hLe, Option.getD_none]

/-- Every run is the beginning of a history. -/
theorem exists_of_after {horizon : Nat} {events : List Event} {last : Machine α}
    (hAfter : (Machine.start ttl horizon).after supply events = some last) :
    ∃ history : History supply ttl, history.horizon = horizon ∧
      history.machine events.length = last ∧
      ∀ k (hLt : k < events.length), history.event k = events[k] := by
  refine ⟨.ofEvents horizon events (Option.isSome_iff_exists.mpr ⟨last, hAfter⟩), rfl, ?_,
    fun k hLt => ?_⟩
  · simp [ofEvents, hAfter]
  · simp [ofEvents, hLt]

end History

end ProcessCensus.Memo
