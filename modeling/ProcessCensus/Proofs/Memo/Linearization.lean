import ProcessCensus.Proofs.Memo.History

/-!
What callers get, in the order of time. Every caller gets what is published at its last step, wherever
it has got the value from; and since what is published never gets older, neither do the values that
callers get one after the other.
-/

namespace ProcessCensus.Memo

open Machine

variable {α : Type}

namespace History

variable {supply : Nat → α} {ttl : Option Nat} (history : History supply ttl)

/-- At this moment the caller takes its last step, by which it gets the answer to a call of the
supplier that is published then. -/
structure Answers (caller moment call : Nat) : Prop where
  event : history.event moment = .step caller
  done : (history.machine (moment + 1)).At caller (.done (supply call))
  published : history.published (moment + 1) = some call

/-- Whoever has got a value has got it from what was published. -/
theorem answers_of_done {caller k : Nat} {value : α}
    (hAt : (history.machine k).At caller (.done value)) :
    ∃ start moment call, history.Starts caller start ∧ start < moment ∧ moment < k ∧
      history.Answers caller moment call ∧ value = supply call ∧
      (history.machine (moment + 1)).memo.current? = some value := by
  obtain ⟨moment, hLast, hEvent, old, hOld, hMoves⟩ := history.moved_of_at hAt (by simp)
  obtain ⟨start, hFirst, hStarts⟩ := history.starts_of_at hOld
  have hCurrent := hMoves.current?_eq
  have hPublished := hCurrent
  rw [history.current?_eq_map_published] at hPublished
  obtain ⟨call, hCall, rfl⟩ := Option.map_eq_some_iff.mp hPublished
  exact ⟨start, moment, call, hStarts, hFirst, hLast, ⟨hEvent, hMoves.at_new hOld, hCall⟩, rfl,
    hCurrent⟩

variable {history}

theorem Answers.moves {caller moment call : Nat} (hAnswers : history.Answers caller moment call) :
    ∃ old, (history.machine moment).At caller old ∧
      Moves supply (history.machine moment) caller old (.done (supply call))
        (history.machine (moment + 1)) := by
  have hHappens := history.happens moment
  rw [hAnswers.event] at hHappens
  obtain ⟨old, new, hOld, hNew, hMoves⟩ := hHappens.moves
  obtain rfl := hNew.unique hAnswers.done
  exact ⟨old, hOld, hMoves⟩

/-- A value that is published at two moments is published at all moments in between. -/
theorem published_between {i j k call : Nat} (hFirst : history.published i = some call)
    (hLast : history.published k = some call) (hAfter : i ≤ j) (hBefore : j ≤ k) :
    history.published j = some call := by
  obtain ⟨middle, hMiddle, hLower⟩ := history.published_mono hFirst hAfter
  obtain ⟨last, hSame, hUpper⟩ := history.published_mono hMiddle hBefore
  obtain rfl := Option.some.inj (hSame.symm.trans hLast)
  rw [hMiddle, Nat.le_antisymm hUpper hLower]

/-- A value that has expired does not become fresh again. -/
theorem stale_of_published {j k call : Nat} (hFirst : history.published j = some call)
    (hLast : history.published k = some call) (hLe : j ≤ k)
    (hStale : (history.machine j).memo.Stale (history.machine j).clock) :
    (history.machine k).memo.Stale (history.machine k).clock := by
  induction hLe with
  | refl => exact hStale
  | @step k hLe ih =>
      have hMiddle := published_between hFirst hLast hLe (Nat.le_succ k)
      rcases (history.happens k).memo_cases with ⟨latest, hLatest, -⟩ | ⟨hQuiet, -⟩
      · have hLater := history.published_lt_of_publishes hMiddle hLatest
        rw [history.published_succ_of_publishes hLatest] at hLast
        obtain rfl := Option.some.inj hLast
        exact absurd hLater (Nat.lt_irrefl _)
      · exact (history.happens k).stale hQuiet (ih hMiddle)

/-- Of two callers of whom one gets its value before the other arrives, the other gets no older
value. -/
theorem Answers.le {first second moment later start older newer : Nat}
    (hFirst : history.Answers first moment older) (hSecond : history.Answers second later newer)
    (hStarts : history.Starts second start) (hBefore : moment < start) : older ≤ newer := by
  have hLt := history.lt_of_at (Nat.le_of_eq hStarts.last) hSecond.done
  obtain ⟨call, hCall, hLe⟩ :=
    history.published_mono hFirst.published (Nat.lt_of_lt_of_le hBefore (Nat.le_of_lt hLt))
  rw [hSecond.published] at hCall
  rwa [Option.some.inj hCall]

/-- Who gets a value that had expired before has found the lock taken. -/
theorem Answers.taken {caller start moment call : Nat} (hStarts : history.Starts caller start)
    (hAnswers : history.Answers caller moment call) (hPublished : history.published start = some call)
    (hStale : (history.machine start).memo.Stale (history.machine start).clock) :
    ∃ attempt other, start < attempt ∧ attempt < moment ∧ history.event attempt = .step caller ∧
      (history.machine attempt).At caller .trying ∧
      (history.machine attempt).holder = some other ∧ other ≠ caller := by
  obtain ⟨old, hOld, hMoves⟩ := hAnswers.moves
  have hLt := history.lt_of_at (Nat.le_of_eq hStarts.last) hOld
  have hMiddle := published_between hPublished hAnswers.published (Nat.le_of_lt hLt) (Nat.le_succ _)
  rcases hMoves.of_done with hFresh | ⟨hDate, latest, rfl⟩ | rfl
  · exact absurd (stale_of_published hPublished hMiddle (Nat.le_of_lt hLt) hStale) hFresh
  · have hLatest := publishes?_eq_some.mpr
      ⟨hDate, answers?_eq_some.mpr ⟨caller, hAnswers.event, hOld⟩⟩
    have hLater := history.published_lt_of_publishes hMiddle hLatest
    have hSame := (history.published_succ_of_publishes hLatest).symm.trans hAnswers.published
    exact absurd hLater (Nat.not_lt.mpr (Nat.le_of_eq (Option.some.inj hSame)))
  · obtain ⟨attempt, hBefore, hEvent, old, hTrying, hMoved⟩ := history.moved_of_at hOld (by simp)
    obtain ⟨rfl, other, hTaken⟩ := hMoved.of_reading
    refine ⟨attempt, other, history.lt_of_at (Nat.le_of_eq hStarts.last) hTrying, hBefore, hEvent,
      hTrying, hTaken, ?_⟩
    rintro rfl
    exact ((history.guarded attempt).holder_iff hTrying).mp hTaken

variable (history)

/-- Before something is published for the first time nothing was. -/
theorem slot_eq_none_of_le {j k : Nat} (hEmpty : (history.machine k).memo.slot = none)
    (hLe : j ≤ k) : (history.machine j).memo.slot = none := by
  have hCurrent : ∀ i, (history.machine i).memo.slot = none ↔ history.published i = none := by
    intro i
    rw [← Option.map_eq_none_iff (f := supply), ← history.current?_eq_map_published i, current?,
      Option.map_eq_none_iff]
  rw [hCurrent] at hEmpty ⊢
  cases hPublished : history.published j with
  | none => rfl
  | some call =>
      obtain ⟨later, hLater, -⟩ := history.published_mono hPublished hLe
      rw [hEmpty] at hLater
      cases hLater

/-- Who waits has read before anything was published. -/
theorem read_of_waiting {caller k : Nat} (hAt : (history.machine k).At caller .waiting) :
    ∃ look < k, history.event look = .step caller ∧ (history.machine look).At caller .reading ∧
      ∀ i ≤ look, (history.machine i).memo.slot = none := by
  obtain ⟨look, hLt, hEvent, old, hOld, hMoves⟩ := history.moved_of_at hAt (by simp)
  obtain ⟨rfl, hEmpty⟩ := hMoves.of_waiting
  exact ⟨look, hLt, hEvent, hOld, fun i hLe => history.slot_eq_none_of_le hEmpty hLe⟩

/-- Every caller gets a value that is published between its arrival and its last step. What is
published never gets older, and neither do the values of callers who come one after the other. A
caller gets a value that had expired before it came only if it has found the lock taken by another,
and waits only if nothing had ever been published when it read. Apart from those who wait and those
who have a value only callers take no step whose value the clock cannot date. -/
theorem reads_linearizable :
    (∀ caller k value, (history.machine k).At caller (.done value) →
      ∃ start moment call, history.Starts caller start ∧ start < moment ∧ moment < k ∧
        history.Answers caller moment call ∧ value = supply call ∧
        (history.machine (moment + 1)).memo.current? = some value) ∧
    (∀ j k older, j ≤ k → history.published j = some older →
      ∃ newer, history.published k = some newer ∧ older ≤ newer) ∧
    (∀ first second moment start later older newer, history.Answers first moment older →
      history.Starts second start → moment < start → history.Answers second later newer →
        older ≤ newer) ∧
    (∀ caller start moment call, history.Starts caller start →
      history.Answers caller moment call → history.published start = some call →
      (history.machine start).memo.Stale (history.machine start).clock →
        ∃ attempt other, start < attempt ∧ attempt < moment ∧
          history.event attempt = .step caller ∧ (history.machine attempt).At caller .trying ∧
          (history.machine attempt).holder = some other ∧ other ≠ caller) ∧
    (∀ caller k stage, (history.machine k).At caller stage →
      (history.machine k).step supply caller = none →
        stage = .waiting ∨ (∃ value, stage = .done value) ∨
          stage = .broken ∧
            ∃ milliseconds ∈ ttl, history.horizon < (history.machine k).clock + milliseconds) ∧
    ∀ caller k, (history.machine k).At caller .waiting →
      ∃ look < k, history.event look = .step caller ∧ (history.machine look).At caller .reading ∧
        ∀ i ≤ look, (history.machine i).memo.slot = none := by
  refine ⟨?_, ?_, ?_, ?_, ?_, ?_⟩
  · exact fun caller k value hAt => history.answers_of_done hAt
  · exact fun j k older hLe hOlder => history.published_mono hOlder hLe
  · intro first second moment start later older newer hFirst hStarts hBefore hSecond
    exact hFirst.le hSecond hStarts hBefore
  · intro caller start moment call hStarts hAnswers hPublished hStale
    exact hAnswers.taken hStarts hPublished hStale
  · intro caller k stage hAt hStep
    rcases stage_of_step_eq_none hAt hStep with hWaits | hDone | rfl
    · exact .inl hWaits
    · exact .inr (.inl hDone)
    · exact .inr (.inr ⟨rfl, history.horizon_lt_of_broken hAt⟩)
  · exact fun caller k hAt => history.read_of_waiting hAt

/-- One caller waits for the first value, and after that has expired another reads it while a third
one computes the second. -/
def relay : History id (some 5) :=
  .ofEvents 100 [.arrive, .step 0, .step 0, .step 0, .step 0, .arrive, .step 1, .step 1, .step 1, .step 0,
    .step 1, .step 1, .advance 5, .arrive, .step 2, .step 2, .step 2, .step 2, .arrive, .step 3,
    .step 3, .step 3, .step 2, .arrive, .step 4] (by decide)

theorem reads_linearizable_relay :
    relay.Answers 3 21 1 ∧ relay.Answers 4 24 2 ∧ relay.Starts 4 23 ∧ 1 ≤ 2 ∧
      (∃ attempt other, 18 < attempt ∧ attempt < 21 ∧ relay.event attempt = .step 3 ∧
        (relay.machine attempt).At 3 .trying ∧
        (relay.machine attempt).holder = some other ∧ other ≠ 3) ∧
      ∃ look < 9, relay.event look = .step 1 ∧ (relay.machine look).At 1 .reading ∧
        ∀ i ≤ look, (relay.machine i).memo.slot = none := by
  have hStale : relay.Answers 3 21 1 := ⟨rfl, rfl, rfl⟩
  have hFresh : relay.Answers 4 24 2 := ⟨rfl, rfl, rfl⟩
  obtain ⟨-, -, hOrder, hTaken, -, hWaits⟩ := relay.reads_linearizable
  refine ⟨hStale, hFresh, ⟨rfl, rfl⟩, ?_, ?_, ?_⟩
  · exact hOrder 3 4 21 23 24 1 2 hStale ⟨rfl, rfl⟩ (by decide) hFresh
  · exact hTaken 3 18 21 1 ⟨rfl, rfl⟩ hStale rfl (fresh?_eq_none_iff.mp rfl)
  · exact hWaits 1 9 rfl

end History

end ProcessCensus.Memo
