import ProcessCensus.Proofs.Memo.Linearization

/-!
Declaring the published value expired. What is published at that moment never counts as fresh again,
and neither does anything older. The answer of a call that is still in flight is published later, with
a time to live of its own: nothing tells it that it was asked for before the expiry. So an expiry
reaches every call that began before it, unless it comes while the supplier computes.
-/

namespace ProcessCensus.Memo

open Machine

variable {α : Type}

namespace Machine

variable {supply : Nat → α} {machine next : Machine α} {event : Event}

/-- An answer is fresh right after it is published, unless it may not live at all. -/
theorem Happens.fresh_of_publishes (hHappens : Happens supply machine event next) {call : Nat}
    (hCall : machine.publishes? event = some call) (hTtl : machine.memo.ttl ≠ some 0) :
    ¬next.memo.Stale next.clock := by
  obtain ⟨caller, rfl, hAt⟩ := computing_of_publishes hCall
  obtain ⟨old, new, hOld, -, hMoves⟩ := hHappens.moves
  obtain rfl := hOld.unique hAt
  cases hMoves with
  | breakOff hDate =>
      rw [publishes?_eq_none_of_canDate hDate] at hCall
      cases hCall
  | publish =>
      intro hStale
      refine Bool.eq_false_iff.mp (hStale _ rfl) (isFresh_iff.mpr fun expiry hExpiry => ?_)
      obtain ⟨ttl, hSome, rfl⟩ := Option.map_eq_some_iff.mp hExpiry
      have hPos : ttl ≠ 0 := by
        rintro rfl
        exact hTtl hSome
      exact Nat.lt_add_of_pos_right (Nat.pos_of_ne_zero hPos)

theorem Happens.stale_of_expire (hHappens : Happens supply machine .expire next) :
    next.memo.Stale next.clock := by
  cases hHappens with
  | expire => exact stale_expire _ _

end Machine

namespace History

variable {supply : Nat → α} {ttl : Option Nat} (history : History supply ttl)

/-- At this moment the caller starts the supplier, for the `call`-th time. -/
structure Launches (caller moment call : Nat) : Prop where
  event : history.event moment = .step caller
  before : (history.machine moment).At caller .starting
  after : (history.machine (moment + 1)).At caller (.computing call)
  call_eq : call = (history.machine moment).calls + 1
  calls_eq : (history.machine (moment + 1)).calls = call

/-- Whenever the caller tries to take the refresh lock it is free. -/
def Unhindered (caller : Nat) : Prop :=
  ∀ k, history.event k = .step caller → (history.machine k).At caller .trying →
    (history.machine k).holder = none

/-- Whoever computes has started the supplier. -/
theorem launches_of_computing {caller k call : Nat}
    (hAt : (history.machine k).At caller (.computing call)) :
    ∃ launch < k, history.Launches caller launch call := by
  obtain ⟨launch, hLt, hEvent, old, hOld, hMoves⟩ := history.moved_of_at hAt (by simp)
  obtain ⟨rfl, hCall, hCalls⟩ := hMoves.of_computing
  exact ⟨launch, hLt, hEvent, hOld, hMoves.at_new hOld, hCall, hCalls.trans hCall.symm⟩

/-- Whatever is published was computed, up to the step that published it. -/
theorem publishes_of_published {k call : Nat} (hCall : history.published k = some call) :
    ∃ j < k, (history.machine j).publishes? (history.event j) = some call := by
  induction k with
  | zero => cases hCall
  | succ k ih =>
      rcases (history.happens k).memo_cases with ⟨latest, hLatest, -⟩ | ⟨hQuiet, -⟩
      · rw [history.published_succ_of_publishes hLatest] at hCall
        exact ⟨k, Nat.lt_succ_self k, hLatest.trans hCall⟩
      · obtain ⟨j, hLt, hPublishes⟩ := ih ((history.published_succ_of_quiet hQuiet).symm.trans hCall)
        exact ⟨j, Nat.lt_succ_of_lt hLt, hPublishes⟩

theorem launches_of_published {k call : Nat} (hCall : history.published k = some call) :
    ∃ launch < k, ∃ caller, history.Launches caller launch call := by
  obtain ⟨j, hLt, hPublishes⟩ := history.publishes_of_published hCall
  obtain ⟨caller, -, hAt⟩ := computing_of_publishes hPublishes
  obtain ⟨launch, hBefore, hLaunches⟩ := history.launches_of_computing hAt
  exact ⟨launch, Nat.lt_trans hBefore hLt, caller, hLaunches⟩

variable {history}

theorem Launches.lt_of_calls_lt {caller launch k call : Nat}
    (hLaunches : history.Launches caller launch call) (hExpire : history.event k = .expire)
    (hCall : (history.machine k).calls < call) : k < launch := by
  refine Nat.lt_of_le_of_ne (Nat.not_lt.mp fun hBefore => ?_) ?_
  · have hMono : (history.machine (launch + 1)).calls ≤ (history.machine k).calls :=
      history.calls_mono hBefore
    rw [hLaunches.calls_eq] at hMono
    exact absurd hCall (Nat.not_lt.mpr hMono)
  · rintro rfl
    have hEvent := hLaunches.event
    rw [hExpire] at hEvent
    cases hEvent

/-- What is published when somebody declares it expired is stale from then on. -/
theorem stale_of_expire {j k call : Nat} (hExpire : history.event k = .expire) (hLt : k < j)
    (hFirst : history.published k = some call) (hLast : history.published j = some call) :
    (history.machine j).memo.Stale (history.machine j).clock := by
  have hHappens := history.happens k
  rw [hExpire] at hHappens
  have hQuiet : (history.machine k).publishes? (history.event k) = none := by rw [hExpire]; rfl
  have hNext := (history.published_succ_of_quiet hQuiet).trans hFirst
  exact stale_of_published hNext hLast hLt hHappens.stale_of_expire

/-- A value that is fresh after an expiry, although it was asked for before, is the answer of the
call that was in flight then. -/
theorem computing_of_fresh {j k call : Nat} (hExpire : history.event k = .expire) (hLt : k < j)
    (hPublished : history.published j = some call) (hCall : call ≤ (history.machine k).calls)
    (hFresh : ¬(history.machine j).memo.Stale (history.machine j).clock) :
    ∃ caller, (history.machine k).At caller (.computing call) := by
  obtain ⟨i, hBefore, hPublishes⟩ := history.publishes_of_published hPublished
  have hNext := history.published_succ_of_publishes hPublishes
  rcases Nat.lt_or_ge i k with hEarly | hLate
  · have hThen := published_between hNext hPublished (Nat.succ_le_of_lt hEarly) (Nat.le_of_lt hLt)
    exact absurd (stale_of_expire hExpire hLt hThen hPublished) hFresh
  · obtain ⟨caller, -, hAt⟩ := computing_of_publishes hPublishes
    exact ⟨caller, history.computing_of_le hLate hAt hCall⟩

/-- If no call is in flight when somebody declares the value expired, whatever is fresh afterwards
was asked for afterwards. -/
theorem calls_lt_of_fresh {j k call : Nat} (hExpire : history.event k = .expire)
    (hIdle : ∀ caller call, ¬(history.machine k).At caller (.computing call)) (hLt : k < j)
    (hPublished : history.published j = some call)
    (hFresh : ¬(history.machine j).memo.Stale (history.machine j).clock) :
    (history.machine k).calls < call := by
  refine Nat.not_le.mp fun hCall => ?_
  obtain ⟨caller, hAt⟩ := computing_of_fresh hExpire hLt hPublished hCall hFresh
  exact hIdle caller call hAt

/-- A caller who comes after the expiry and finds the lock free gets the answer of a call that was
started after the expiry. -/
theorem Answers.launches {caller start moment k call : Nat} (hExpire : history.event k = .expire)
    (hIdle : ∀ caller call, ¬(history.machine k).At caller (.computing call))
    (hStarts : history.Starts caller start) (hLater : k < start)
    (hAnswers : history.Answers caller moment call) (hFree : history.Unhindered caller) :
    ∃ launch other, k < launch ∧ launch < moment ∧ history.Launches other launch call := by
  obtain ⟨old, hOld, hMoves⟩ := hAnswers.moves
  have hStart := history.lt_of_at (Nat.le_of_eq hStarts.last) hOld
  rcases (history.happens moment).memo_cases with ⟨latest, hLatest, -⟩ | ⟨hQuiet, -⟩
  · -- The caller publishes what it has computed.
    have hSame := (history.published_succ_of_publishes hLatest).symm.trans hAnswers.published
    obtain ⟨other, hEvent, hComputing⟩ := computing_of_publishes hLatest
    obtain rfl := Event.step.inj (hEvent.symm.trans hAnswers.event)
    obtain ⟨launch, hBefore, hLaunches⟩ := history.launches_of_computing hComputing
    have hAfter := history.lt_of_at (Nat.le_of_eq hStarts.last) hLaunches.before
    exact ⟨launch, other, Nat.lt_trans hLater hAfter, hBefore, Option.some.inj hSame ▸ hLaunches⟩
  · have hPublished := (history.published_succ_of_quiet hQuiet).symm.trans hAnswers.published
    rcases hMoves.of_done with hFresh | ⟨hDate, latest, rfl⟩ | rfl
    · have hCall := calls_lt_of_fresh hExpire hIdle (Nat.lt_trans hLater hStart) hPublished hFresh
      obtain ⟨launch, hBefore, other, hLaunches⟩ := history.launches_of_published hPublished
      exact ⟨launch, other, hLaunches.lt_of_calls_lt hExpire hCall, hBefore, hLaunches⟩
    · have hLatest := publishes?_eq_some.mpr
        ⟨hDate, answers?_eq_some.mpr ⟨caller, hAnswers.event, hOld⟩⟩
      rw [hQuiet] at hLatest
      cases hLatest
    · -- Whoever reads what is published has found the lock taken.
      obtain ⟨attempt, -, hEvent, old, hTrying, hMoved⟩ := history.moved_of_at hOld (by simp)
      obtain ⟨rfl, other, hTaken⟩ := hMoved.of_reading
      rw [hFree attempt hEvent hTrying] at hTaken
      cases hTaken

variable (history)

/-- An expiry lasts. Whatever is taken for fresh after it, although it was asked for before, is the
answer of a call that was in flight then; and that answer, once published, is fresh. If no call was
in flight, whoever finds a fresh value later gets one that was asked for later. A caller who comes
later, and does not find another one refreshing the value, gets the answer of a call that was
started later, and by itself if nobody else has started one. -/
theorem expiry_lasts {k : Nat} (hExpire : history.event k = .expire) :
    (∀ j call, k < j → history.published j = some call → call ≤ (history.machine k).calls →
      ¬(history.machine j).memo.Stale (history.machine j).clock →
        ∃ caller, (history.machine k).At caller (.computing call)) ∧
    (∀ j call, (history.machine j).publishes? (history.event j) = some call → ttl ≠ some 0 →
      history.published (j + 1) = some call ∧
        ¬(history.machine (j + 1)).memo.Stale (history.machine (j + 1)).clock) ∧
    ((∀ caller call, ¬(history.machine k).At caller (.computing call)) →
      (∀ j caller value, k < j → history.event j = .step caller →
        ((history.machine j).At caller .checking ∨ (history.machine j).At caller .rechecking) →
        (history.machine j).memo.fresh? (history.machine j).clock = some value →
          ∃ call, history.published j = some call ∧ value = supply call ∧
            (history.machine k).calls < call) ∧
      ∀ caller start moment call, history.Starts caller start → k < start →
        history.Answers caller moment call → history.Unhindered caller →
          ∃ launch other, k < launch ∧ launch < moment ∧ history.Launches other launch call ∧
            ((∀ i rival later, k < i → i < moment → history.Launches rival i later →
              rival = caller) → other = caller)) := by
  refine ⟨?_, ?_, fun hIdle => ⟨?_, ?_⟩⟩
  · intro j call hLt hPublished hCall hFresh
    exact computing_of_fresh hExpire hLt hPublished hCall hFresh
  · intro j call hPublishes hTtl
    refine ⟨history.published_succ_of_publishes hPublishes, ?_⟩
    exact (history.happens j).fresh_of_publishes hPublishes (by rwa [history.ttl_eq j])
  · intro j caller value hLt hEvent hLook hFresh
    have hCurrent := current?_of_fresh? hFresh
    rw [history.current?_eq_map_published] at hCurrent
    obtain ⟨call, hPublished, rfl⟩ := Option.map_eq_some_iff.mp hCurrent
    refine ⟨call, hPublished, rfl, calls_lt_of_fresh hExpire hIdle hLt hPublished fun hStale => ?_⟩
    exact hStale.fresh?_ne_some _ hFresh
  · intro caller start moment call hStarts hLater hAnswers hFree
    obtain ⟨launch, other, hAfter, hBefore, hLaunches⟩ :=
      hAnswers.launches hExpire hIdle hStarts hLater hFree
    exact ⟨launch, other, hAfter, hBefore, hLaunches,
      fun hAlone => hAlone launch other call hAfter hBefore hLaunches⟩

/-- A value is declared expired, and the next caller asks for a new one, which the last caller finds
fresh. -/
def renewal : History id none :=
  .ofEvents 100 [.arrive, .step 0, .step 0, .step 0, .step 0, .step 0, .expire, .arrive, .step 1, .step 1,
    .step 1, .step 1, .step 1, .arrive, .step 2] (by decide)

theorem renewal_unhindered : renewal.Unhindered 1 := by
  intro k hEvent hAt
  have hLt : k < 15 := by
    refine Nat.not_le.mp fun hLe => ?_
    cases hEvent.symm.trans (event_ofEvents_of_le _ hLe)
  have hAll : ∀ i < 15, (renewal.machine i).callers[1]? = some .trying →
      (renewal.machine i).holder = none := by decide
  exact hAll k hLt hAt

theorem expiry_lasts_renewal :
    renewal.event 6 = .expire ∧ (∀ caller call, ¬(renewal.machine 6).At caller (.computing call)) ∧
      (∃ call, renewal.published 14 = some call ∧ 2 = id call ∧ (renewal.machine 6).calls < call) ∧
      renewal.Starts 1 7 ∧ renewal.Answers 1 12 2 ∧ renewal.Unhindered 1 ∧
      ∃ launch other, 6 < launch ∧ launch < 12 ∧ renewal.Launches other launch 2 := by
  have hIdle : ∀ caller call, ¬(renewal.machine 6).At caller (.computing call) := by
    intro caller call hAt
    have hMem : Stage.computing call ∈ [Stage.done 1] := hAt.mem
    simp at hMem
  obtain ⟨-, -, hLater⟩ := renewal.expiry_lasts (k := 6) rfl
  obtain ⟨hFresh, hAnswers⟩ := hLater hIdle
  have hAnswer : renewal.Answers 1 12 2 := ⟨rfl, rfl, rfl⟩
  obtain ⟨launch, other, hAfter, hBefore, hLaunches, -⟩ :=
    hAnswers 1 7 12 2 ⟨rfl, rfl⟩ (by decide) hAnswer renewal_unhindered
  exact ⟨rfl, hIdle, hFresh 14 2 2 (by decide) rfl (.inl rfl) rfl, ⟨rfl, rfl⟩, hAnswer,
    renewal_unhindered, launch, other, hAfter, hBefore, hLaunches⟩

/-- A value is declared expired twice, the second time while the supplier computes the next one. The
last caller finds that one fresh. -/
def overtaken : History id none :=
  .ofEvents 100 [.arrive, .step 0, .step 0, .step 0, .step 0, .step 0, .expire, .arrive, .step 1, .step 1,
    .step 1, .step 1, .expire, .step 1, .arrive, .step 2] (by decide)

/-- An expiry that comes while the supplier computes is lost: a later caller takes for fresh the
answer of a call that had been started before, and the supplier is not asked again. -/
theorem expiry_lost_in_flight :
    overtaken.event 12 = .expire ∧ (overtaken.machine 12).calls = 2 ∧
      (overtaken.machine 12).memo.Stale (overtaken.machine 12).clock ∧ overtaken.Starts 2 14 ∧
      (∀ caller call, ¬(overtaken.machine 14).At caller (.computing call)) ∧
      overtaken.published 15 = some 2 ∧
      (overtaken.machine 15).memo.fresh? (overtaken.machine 15).clock = some 2 ∧
      overtaken.Answers 2 15 2 ∧ (overtaken.machine 16).calls = 2 := by
  refine ⟨rfl, rfl, fresh?_eq_none_iff.mp rfl, ⟨rfl, rfl⟩, ?_, rfl, rfl, ⟨rfl, rfl, rfl⟩, rfl⟩
  intro caller call hAt
  have hMem : Stage.computing call ∈ [Stage.done 1, Stage.done 2] := hAt.mem
  simp at hMem

end History

end ProcessCensus.Memo
