import ProcessCensus.Proofs.Memo.History

/-!
One computation at a time. Of the callers who find nothing fresh, the first to get the lock starts
the supplier; the others read the old value or wait, and find the new value when they get the lock.
So a race goes through three phases: nobody has started the supplier yet, the supplier computes, and
its answer is published. If the clock cannot tell when the answer would expire, the second phase ends
in another way: nothing is published from then on, and whoever starts the supplier is broken off.
-/

namespace ProcessCensus.Memo

variable {α : Type}

/-- Whether a caller at this stage has got its value or was broken off. -/
def Stage.Over : Stage α → Prop
  | .done _ | .broken => True
  | _ => False

instance (stage : Stage α) : Decidable stage.Over :=
  match stage with
  | .done _ | .broken => isTrue trivial
  | .checking | .trying | .rechecking | .starting | .computing _ | .reading | .waiting =>
    isFalse id

namespace Machine

variable {supply : Nat → α} {first machine next : Machine α} {event : Event} {deadline : Nat}

/-- Nobody has started the supplier since a race began. Unless somebody holds the lock, nobody has
got any further than trying to take it. -/
structure Pending (first machine : Machine α) : Prop where
  calls : machine.calls = first.calls
  stale : machine.memo.Stale machine.clock
  idle : ∀ caller call, ¬machine.At caller (.computing call)
  untaken : machine.holder = none → ∀ caller stage, machine.At caller stage →
    stage = .checking ∨ stage = .trying ∨ first.At caller stage ∧ stage.Over

/-- One caller has started the supplier since a race began, and it computes. -/
structure InFlight (first machine : Machine α) : Prop where
  calls : machine.calls = first.calls + 1
  busy : ∃ caller, machine.At caller (.computing machine.calls)

/-- The supplier has been started once since a race began, and its answer is there to stay. -/
structure Settled (first machine : Machine α) (deadline : Nat) : Prop where
  calls : machine.calls = first.calls + 1
  lasting : ∃ slot, machine.memo.slot = some slot ∧
    ∀ expiry, slot.expiresAt = some expiry → deadline < expiry
  idle : ∀ caller stage, machine.At caller stage → ¬stage.Commits

/-- While the value is stale and no supplier computes, nobody lets go of the lock. -/
theorem Pending.holder_eq_none (hPending : Pending first machine)
    (hHappens : Happens supply machine event next) (hFree : next.holder = none) :
    machine.holder = none := by
  cases hHappens with
  | arrive => exact hFree
  | expire => exact hFree
  | advance milliseconds => exact hFree
  | step hOld hMoves =>
      cases hMoves with
      | lock hBefore => exact hBefore
      | acquire hBefore => exact hBefore
      | rehit hFresh => exact absurd hFresh (hPending.stale.fresh?_ne_some _)
      | publish => exact absurd hOld (hPending.idle _ _)
      | breakOff => exact absurd hOld (hPending.idle _ _)
      | _ => exact hFree

theorem Pending.untaken_next (hPending : Pending first machine)
    (hHappens : Happens supply machine event next) (hFree : next.holder = none) {caller : Nat}
    {stage : Stage α} (hAt : next.At caller stage) :
    stage = .checking ∨ stage = .trying ∨ first.At caller stage ∧ stage.Over := by
  have hBefore := hPending.holder_eq_none hHappens hFree
  rcases hHappens.at_cases hAt with hSame | ⟨-, -, hNew⟩ | ⟨-, old, hOld, hMoves⟩
  · exact hPending.untaken hBefore caller stage hSame
  · exact .inl hNew
  · rcases hPending.untaken hBefore caller old hOld with rfl | rfl | ⟨-, hOver⟩
    · cases hMoves with
      | hit hFresh => exact absurd hFresh (hPending.stale.fresh?_ne_some _)
      | miss => exact .inr (.inl rfl)
    · cases hMoves with
      | lock => cases hFree
      | taken hTaken =>
          rw [hBefore] at hTaken
          cases hTaken
    · cases hMoves <;> exact hOver.elim

theorem Pending.answers?_eq_none (hPending : Pending first machine) (event : Event) :
    machine.answers? event = none :=
  Option.eq_none_iff_forall_ne_some.mpr fun call hCall => by
    obtain ⟨caller, -, hAt⟩ := answers?_eq_some.mp hCall
    exact hPending.idle caller call hAt

/-- The first phase of a race ends when somebody starts the supplier. -/
theorem Pending.happens (hPending : Pending first machine)
    (hHappens : Happens supply machine event next) :
    Pending first next ∨ InFlight first next := by
  rcases hHappens.calls_cases with hCalls | ⟨hCalls, caller, -, -, hComputing⟩
  · have hQuiet : machine.publishes? event = none :=
      publishes?_eq_none_of_answers? (hPending.answers?_eq_none event)
    refine .inl ⟨hCalls.trans hPending.calls, hHappens.stale hQuiet hPending.stale, ?_,
      fun hFree caller stage hAt => hPending.untaken_next hHappens hFree hAt⟩
    intro caller call hAt
    rcases hHappens.at_cases hAt with hBefore | ⟨-, -, hNew⟩ | ⟨-, old, -, hMoves⟩
    · exact hPending.idle caller call hBefore
    · cases hNew
    · have hStarted := hMoves.of_computing.2.2
      omega
  · refine .inr ⟨by rw [hCalls, hPending.calls], caller, ?_⟩
    rw [hCalls]
    exact hComputing

/-- While one caller computes nobody else starts the supplier. -/
theorem InFlight.calls_next (hInFlight : InFlight first machine) (hGuarded : Guarded machine)
    (hHappens : Happens supply machine event next) : next.calls = machine.calls := by
  obtain ⟨caller, hAt⟩ := hInFlight.busy
  rcases hHappens.calls_cases with hSame | ⟨-, other, -, hStarting, -⟩
  · exact hSame
  · obtain rfl := hGuarded.alone hAt trivial hStarting trivial
    cases hAt.unique hStarting

/-- The second phase of a race lasts until the supplier answers. -/
theorem InFlight.happens (hInFlight : InFlight first machine) (hGuarded : Guarded machine)
    (hHappens : Happens supply machine event next) (hUnanswered : machine.answers? event = none) :
    InFlight first next := by
  have hCalls := hInFlight.calls_next hGuarded hHappens
  obtain ⟨caller, hAt⟩ := hInFlight.busy
  refine ⟨hCalls.trans hInFlight.calls, caller, hCalls ▸ hHappens.at_of_ne hAt ?_⟩
  rintro rfl
  have hCall := answers?_eq_some.mpr ⟨caller, rfl, hAt⟩
  rw [hUnanswered] at hCall
  cases hCall

/-- The third phase of a race begins when the supplier's answer is published. -/
theorem InFlight.settled {call : Nat} (hInFlight : InFlight first machine)
    (hGuarded : Guarded machine) (hHappens : Happens supply machine event next)
    (hNext : Guarded next) (hCall : machine.publishes? event = some call)
    (hInTime : machine.publishes? event = some (first.calls + 1) →
      ∀ ttl ∈ machine.memo.ttl, deadline < machine.clock + ttl) :
    Settled first next deadline := by
  rcases hHappens.memo_cases with ⟨latest, hSame, hHolder, hMemo⟩ | ⟨hQuiet, -⟩
  · obtain ⟨caller, -, hAt⟩ := computing_of_publishes hSame
    have hLatest : latest = first.calls + 1 :=
      (hGuarded.latest caller latest hAt).trans hInFlight.calls
    refine ⟨(hInFlight.calls_next hGuarded hHappens).trans hInFlight.calls,
      ⟨_, congrArg Memo.slot hMemo, ?_⟩,
      fun other stage hStage => hNext.not_commits_of_holder_ne hStage (by simp [hHolder])⟩
    intro expiry hExpiry
    obtain ⟨ttl, hTtl, rfl⟩ := Option.map_eq_some_iff.mp hExpiry
    exact hInTime (hLatest ▸ hSame) ttl hTtl
  · rw [hQuiet] at hCall
    cases hCall

theorem Settled.answers?_eq_none (hSettled : Settled first machine deadline) (event : Event) :
    machine.answers? event = none :=
  Option.eq_none_iff_forall_ne_some.mpr fun call hCall => by
    obtain ⟨caller, -, hAt⟩ := answers?_eq_some.mp hCall
    exact hSettled.idle caller _ hAt trivial

/-- In the third phase of a race nobody gets past the second look any more. -/
theorem Settled.happens (hSettled : Settled first machine deadline)
    (hHappens : Happens supply machine event next) (hEvent : event ≠ .expire)
    (hClock : next.clock ≤ deadline) : Settled first next deadline := by
  obtain ⟨slot, hSlot, hLasting⟩ := hSettled.lasting
  have hFresh : ¬machine.memo.Stale machine.clock := by
    intro hStale
    refine Bool.eq_false_iff.mp (hStale slot hSlot) (isFresh_iff.mpr fun expiry hExpiry => ?_)
    have hLater := hLasting expiry hExpiry
    have hBefore := hHappens.clock_le
    omega
  refine ⟨?_, ⟨slot, ?_, hLasting⟩, ?_⟩
  · rcases hHappens.calls_cases with hCalls | ⟨-, caller, -, hStarting, -⟩
    · exact hCalls.trans hSettled.calls
    · exact (hSettled.idle caller _ hStarting trivial).elim
  · rcases hHappens.memo_cases with ⟨call, hCall, -⟩ | ⟨-, hMemo | ⟨hExpire, -⟩⟩
    · rw [publishes?_eq_none_of_answers? (hSettled.answers?_eq_none event)] at hCall
      cases hCall
    · rw [hMemo, hSlot]
    · exact absurd hExpire hEvent
  · intro caller stage hAt hCommits
    rcases hHappens.at_cases hAt with hBefore | ⟨-, -, rfl⟩ | ⟨-, old, hOld, hMoves⟩
    · exact hSettled.idle caller stage hBefore hCommits
    · exact hCommits
    · cases hMoves with
      | remiss hStale => exact hFresh hStale
      | launch => exact hSettled.idle caller _ hOld trivial
      | _ => exact hCommits

end Machine

open Machine

namespace History

variable {supply : Nat → α} {ttl : Option Nat} (history : History supply ttl)

/-- Between these moments callers race for a value: they begin with nothing fresh, all of them get a
value or are broken off, nobody declares the value expired, and the value that is published does not
expire. -/
structure Race (first last : Nat) : Prop where
  le : first ≤ last
  stale : (history.machine first).memo.Stale (history.machine first).clock
  before : ∀ stage ∈ (history.machine first).callers, stage ≠ .checking → stage.Over
  after : ∀ stage ∈ (history.machine last).callers, stage.Over
  someone : (history.machine first).callers.length < (history.machine last).callers.length ∨
    .checking ∈ (history.machine first).callers
  unexpired : ∀ k < last, first ≤ k → history.event k ≠ .expire
  inTime : ∀ k < last, first ≤ k →
    (history.machine k).publishes? (history.event k) = some ((history.machine first).calls + 1) →
      ∀ milliseconds ∈ ttl, (history.machine last).clock < (history.machine k).clock + milliseconds

/-- The clock can tell when each answer of the supplier between these moments would expire. -/
def Datable (first last : Nat) : Prop :=
  ∀ k < last, first ≤ k → ((history.machine k).answers? (history.event k)).isSome →
    ∀ milliseconds ∈ ttl, (history.machine k).clock + milliseconds ≤ history.horizon

instance (first last : Nat) : Decidable (history.Datable first last) :=
  inferInstanceAs (Decidable (∀ k < last, first ≤ k → _ → _))

/-- The supplier answers nobody between these moments. -/
def Unanswered (first last : Nat) : Prop :=
  ∀ k < last, first ≤ k → (history.machine k).answers? (history.event k) = none

/-- Nothing is published between these moments. -/
def Quiet (first last : Nat) : Prop :=
  ∀ k < last, first ≤ k → (history.machine k).publishes? (history.event k) = none

section Stretches

variable {history} {first k : Nat}

theorem Unanswered.succ (hUnanswered : history.Unanswered first k)
    (hNone : (history.machine k).answers? (history.event k) = none) :
    history.Unanswered first (k + 1) :=
  Nat.forall_lt_succ_right.mpr ⟨hUnanswered, fun _ => hNone⟩

theorem Unanswered.quiet (hUnanswered : history.Unanswered first k) : history.Quiet first k :=
  fun i hLt hFirst => publishes?_eq_none_of_answers? (hUnanswered i hLt hFirst)

theorem Unanswered.datable (hUnanswered : history.Unanswered first k) :
    history.Datable first k := by
  intro i hLt hFirst hSome
  rw [hUnanswered i hLt hFirst] at hSome
  cases hSome

theorem Quiet.succ (hQuiet : history.Quiet first k)
    (hNone : (history.machine k).publishes? (history.event k) = none) :
    history.Quiet first (k + 1) :=
  Nat.forall_lt_succ_right.mpr ⟨hQuiet, fun _ => hNone⟩

theorem Datable.succ_of_none (hDatable : history.Datable first k)
    (hNone : (history.machine k).answers? (history.event k) = none) :
    history.Datable first (k + 1) :=
  Nat.forall_lt_succ_right.mpr ⟨hDatable, fun _ hSome => by
    rw [hNone] at hSome
    cases hSome⟩

theorem Datable.succ_of_canDate (hDatable : history.Datable first k)
    (hDate : (history.machine k).canDate = true) : history.Datable first (k + 1) :=
  Nat.forall_lt_succ_right.mpr ⟨hDatable, fun _ _ => history.canDate_iff.mp hDate⟩

theorem not_datable_succ (hBroken : ¬history.Datable first k) : ¬history.Datable first (k + 1) :=
  fun hDatable => hBroken (Nat.forall_lt_succ_right.mp hDatable).1

/-- Once the clock cannot tell when an answer would expire it never can again. -/
theorem canDate_eq_false_of_not_datable (hBroken : ¬history.Datable first k) :
    (history.machine k).canDate = false := by
  refine Bool.eq_false_iff.mpr fun hDate => hBroken fun i hLt _ _ => ?_
  refine history.canDate_iff.mp ?_
  refine Bool.ne_false_iff.mp fun hEarlier => ?_
  exact Bool.eq_false_iff.mp (history.canDate_eq_false_mono (Nat.le_of_lt hLt) hEarlier) hDate

end Stretches

/-- The phases of a race that has come to the moment `k`, and how it can fail. -/
inductive Phase (first last k : Nat) : Prop
  | pending (hUnanswered : history.Unanswered first k)
      (hPending : Pending (history.machine first) (history.machine k))
  | inFlight (hUnanswered : history.Unanswered first k)
      (hInFlight : InFlight (history.machine first) (history.machine k))
  | settled (hDatable : history.Datable first k)
      (hSettled : Settled (history.machine first) (history.machine k) (history.machine last).clock)
  | failed (hQuiet : history.Quiet first k) (hBroken : ¬history.Datable first k)

namespace Race

variable {history} {first last : Nat}

theorem pending (hRace : history.Race first last) :
    Pending (history.machine first) (history.machine first) := by
  refine ⟨rfl, hRace.stale, fun caller call hAt => ?_, fun _ caller stage hAt => ?_⟩
  · exact hRace.before _ hAt.mem (by simp)
  · by_cases hChecking : stage = .checking
    · exact .inl hChecking
    · exact .inr (.inr ⟨hAt, hRace.before stage hAt.mem hChecking⟩)

/-- The second phase ends when the supplier answers: with the answer published, or in failure. -/
theorem phase_of_answer (hRace : history.Race first last) {k call : Nat} (hFirst : first ≤ k)
    (hLast : k < last) (hUnanswered : history.Unanswered first k)
    (hInFlight : InFlight (history.machine first) (history.machine k))
    (hCall : (history.machine k).answers? (history.event k) = some call) :
    history.Phase first last (k + 1) := by
  cases hDate : (history.machine k).canDate with
  | false =>
      refine .failed (hUnanswered.quiet.succ (publishes?_eq_none_of_canDate hDate _)) ?_
      intro hDatable
      have hTold := history.canDate_iff.mpr
        (hDatable k (Nat.lt_succ_self k) hFirst (Option.isSome_of_eq_some hCall))
      rw [hDate] at hTold
      cases hTold
  | true =>
      refine .settled (hUnanswered.datable.succ_of_canDate hDate) ?_
      refine hInFlight.settled (history.guarded k) (history.happens k) (history.guarded (k + 1))
        (publishes?_eq_some.mpr ⟨hDate, hCall⟩) ?_
      rw [history.ttl_eq k]
      exact hRace.inTime k hLast hFirst

/-- At each moment of a race it is in one of its phases. -/
theorem phase (hRace : history.Race first last) {k : Nat} (hFirst : first ≤ k) (hLast : k ≤ last) :
    history.Phase first last k := by
  induction hFirst with
  | refl => exact .pending (fun i hLt hLe => absurd hLt (Nat.not_lt.mpr hLe)) hRace.pending
  | @step k hFirst ih =>
      have hHappens := history.happens k
      have hLt : k < last := hLast
      cases ih (Nat.le_of_lt hLt) with
      | pending hUnanswered hPending =>
          have hStill := hUnanswered.succ (hPending.answers?_eq_none _)
          rcases hPending.happens hHappens with hNext | hNext
          · exact .pending hStill hNext
          · exact .inFlight hStill hNext
      | inFlight hUnanswered hInFlight =>
          cases hCall : (history.machine k).answers? (history.event k) with
          | none =>
              exact .inFlight (hUnanswered.succ hCall)
                (hInFlight.happens (history.guarded k) hHappens hCall)
          | some call => exact hRace.phase_of_answer hFirst hLt hUnanswered hInFlight hCall
      | settled hDatable hSettled =>
          exact .settled (hDatable.succ_of_none (hSettled.answers?_eq_none _))
            (hSettled.happens hHappens (hRace.unexpired k hLt hFirst) (history.clock_mono hLast))
      | failed hQuiet hBroken =>
          have hDate := canDate_eq_false_of_not_datable hBroken
          exact .failed (hQuiet.succ (publishes?_eq_none_of_canDate hDate _))
            (not_datable_succ hBroken)

/-- A race does not end before somebody has started the supplier. -/
theorem not_pending (hRace : history.Race first last) :
    ¬Pending (history.machine first) (history.machine last) := by
  intro hPending
  cases hHolder : (history.machine last).holder with
  | some holder =>
      obtain ⟨stage, hAt, hHolds⟩ := ((history.guarded last).holder holder).mp hHolder
      have hOver := hRace.after stage hAt.mem
      cases stage <;> first | exact hOver | exact hHolds
  | none =>
      -- Somebody who was not done at the beginning is done at the end, without any step but one.
      have hDone : ∀ caller stage, (history.machine last).At caller stage →
          (history.machine first).At caller stage ∧ stage.Over := by
        intro caller stage hAt
        have hOver := hRace.after stage hAt.mem
        rcases hPending.untaken hHolder caller stage hAt with rfl | rfl | hBefore
        · exact hOver.elim
        · exact hOver.elim
        · exact hBefore
      rcases hRace.someone with hNew | hChecking
      · obtain ⟨stage, hAt⟩ := exists_at hNew
        exact Nat.lt_irrefl _ (hDone _ stage hAt).1.lt_length
      · obtain ⟨caller, hLt, hCaller⟩ := List.getElem_of_mem hChecking
        have hAt : (history.machine first).At caller .checking :=
          List.getElem?_eq_some_iff.mpr ⟨hLt, hCaller⟩
        obtain ⟨stage, hStage⟩ := exists_at (Nat.lt_of_lt_of_le hLt (history.length_mono hRace.le))
        obtain ⟨hSame, hOver⟩ := hDone caller stage hStage
        exact (hSame.unique hAt ▸ hOver : Stage.Over .checking)

/-- At the end nobody computes any more. -/
theorem not_computing (hRace : history.Race first last) (caller call : Nat) :
    ¬(history.machine last).At caller (.computing call) :=
  fun hAt => hRace.after _ hAt.mem

/-- Whether a race comes to its third phase is up to the clock. -/
theorem settled_or_quiet (hRace : history.Race first last) :
    history.Datable first last ∧
        Settled (history.machine first) (history.machine last) (history.machine last).clock ∨
      ¬history.Datable first last ∧ history.Quiet first last := by
  cases hRace.phase hRace.le (Nat.le_refl last) with
  | pending hUnanswered hPending => exact absurd hPending hRace.not_pending
  | inFlight hUnanswered hInFlight =>
      obtain ⟨caller, hAt⟩ := hInFlight.busy
      exact absurd hAt (hRace.not_computing caller _)
  | settled hDatable hSettled => exact .inl ⟨hDatable, hSettled⟩
  | failed hQuiet hBroken => exact .inr ⟨hBroken, hQuiet⟩

theorem calls_eq (hRace : history.Race first last) (hDatable : history.Datable first last) :
    (history.machine last).calls = (history.machine first).calls + 1 := by
  rcases hRace.settled_or_quiet with ⟨-, hSettled⟩ | ⟨hBroken, -⟩
  · exact hSettled.calls
  · exact absurd hDatable hBroken

theorem quiet (hRace : history.Race first last) (hBroken : ¬history.Datable first last) :
    history.Quiet first last := by
  rcases hRace.settled_or_quiet with ⟨hDatable, -⟩ | ⟨-, hQuiet⟩
  · exact absurd hDatable hBroken
  · exact hQuiet

end Race

end History

end ProcessCensus.Memo
