import ProcessCensus.Proofs.Memo.Moves

/-!
The invariant of the refresh lock, which every event keeps: whoever holds the lock is the only
caller between taking it and letting go of it, and nothing is fresh from its second look on.
-/

namespace ProcessCensus.Memo

variable {α : Type}

/-- Whether a caller at this stage holds the refresh lock. -/
def Stage.Holds : Stage α → Prop
  | .rechecking | .starting | .computing _ => True
  | _ => False

/-- Whether a caller at this stage has found nothing fresh while it held the lock. -/
def Stage.Commits : Stage α → Prop
  | .starting | .computing _ => True
  | _ => False

/-- Whoever commits itself holds the lock. -/
theorem Stage.Commits.holds {stage : Stage α} (hCommits : stage.Commits) : stage.Holds := by
  cases stage <;> first | exact trivial | exact hCommits.elim

namespace Machine

/-- The invariant of the refresh lock. -/
structure Guarded (machine : Machine α) : Prop where
  /-- The holder is the one caller at a stage that needs the lock. -/
  holder : ∀ caller, machine.holder = some caller ↔ ∃ stage, machine.At caller stage ∧ stage.Holds
  /-- Nothing becomes fresh while a caller is about to compute, or computes. -/
  stale : ∀ caller stage, machine.At caller stage → stage.Commits →
    machine.memo.Stale machine.clock
  /-- A call that is in flight is the latest one. -/
  latest : ∀ caller call, machine.At caller (.computing call) → call = machine.calls

namespace Guarded

variable {machine next : Machine α} {caller : Nat} {old new : Stage α}

theorem start (ttl : Option Nat) (horizon : Nat) :
    Guarded (Machine.start ttl horizon : Machine α) := by
  constructor <;> simp [Machine.start, At]

theorem holder_iff (hGuarded : Guarded machine) (hOld : machine.At caller old) :
    machine.holder = some caller ↔ old.Holds := by
  rw [hGuarded.holder]
  constructor
  · rintro ⟨stage, hStage, hHolds⟩
    exact hStage.unique hOld ▸ hHolds
  · exact fun hHolds => ⟨old, hOld, hHolds⟩

/-- Two callers never hold the lock at the same time. -/
theorem alone (hGuarded : Guarded machine) {first second : Nat} {stage other : Stage α}
    (hFirst : machine.At first stage) (hHolds : stage.Holds) (hSecond : machine.At second other)
    (hOther : other.Holds) : first = second :=
  Option.some.inj
    (((hGuarded.holder_iff hFirst).mpr hHolds).symm.trans ((hGuarded.holder_iff hSecond).mpr hOther))

/-- No caller but the holder commits itself. -/
theorem not_commits_of_holder_ne (hGuarded : Guarded machine) {other : Nat} {stage : Stage α}
    (hStage : machine.At other stage) (hOther : machine.holder ≠ some other) : ¬stage.Commits :=
  fun hCommits => hOther ((hGuarded.holder_iff hStage).mpr hCommits.holds)

/-- The invariant after a caller's move, from what the move does to the lock and to the memo. -/
theorem moved (hGuarded : Guarded machine) (hOld : machine.At caller old)
    (hCallers : next.callers = machine.callers.set caller new)
    (hOthers : ∀ other, other ≠ caller → (next.holder = some other ↔ machine.holder = some other))
    (hOwn : next.holder = some caller ↔ new.Holds)
    (hStale : (∃ other stage, next.At other stage ∧ stage.Commits) → next.memo.Stale next.clock)
    (hLatest : ∀ other call, next.At other (.computing call) → call = next.calls) :
    Guarded next := by
  refine ⟨fun other => ?_, fun other stage hAt hCommits => hStale ⟨other, stage, hAt, hCommits⟩,
    hLatest⟩
  simp only [at_moved hOld hCallers]
  by_cases hSame : other = caller
  · simp [hSame, hOwn]
  · rw [hOthers other hSame, hGuarded.holder other]
    simp [hSame]

/-- A move that changes nothing but the caller's stage. -/
theorem moved_quiet (hGuarded : Guarded machine) (hOld : machine.At caller old)
    (hHolds : old.Holds ↔ new.Holds) (hCommits : new.Commits → machine.memo.Stale machine.clock)
    (hIdle : ∀ call, new ≠ .computing call) : Guarded (machine.move caller new) := by
  refine hGuarded.moved hOld rfl (fun other _ => Iff.rfl)
    ((hGuarded.holder_iff hOld).trans hHolds) ?_ ?_
  · rintro ⟨other, stage, hAt, hStage⟩
    rcases (at_moved hOld rfl).mp hAt with ⟨-, rfl⟩ | ⟨-, hBefore⟩
    · exact hCommits hStage
    · exact hGuarded.stale other stage hBefore hStage
  · intro other call hAt
    rcases (at_moved hOld rfl).mp hAt with ⟨-, hNew⟩ | ⟨-, hBefore⟩
    · exact absurd hNew.symm (hIdle call)
    · exact hGuarded.latest other call hBefore

/-- A move by which the caller takes the free lock. -/
theorem moved_lock (hGuarded : Guarded machine) (hOld : machine.At caller old)
    (hFree : machine.holder = none) :
    Guarded ({ machine with holder := some caller }.move caller .rechecking) := by
  have hNone : ∀ other stage, machine.At other stage → ¬stage.Commits := fun other stage hAt =>
    hGuarded.not_commits_of_holder_ne hAt (by simp [hFree])
  refine hGuarded.moved hOld rfl ?_ ?_ ?_ ?_
  · intro other hOther
    simp [move, hFree, Ne.symm hOther]
  · simp [move, Stage.Holds]
  · rintro ⟨other, stage, hAt, hStage⟩
    rcases (at_moved hOld rfl).mp hAt with ⟨-, rfl⟩ | ⟨-, hBefore⟩
    · exact hStage.elim
    · exact (hNone other stage hBefore hStage).elim
  · intro other call hAt
    rcases (at_moved hOld rfl).mp hAt with ⟨-, hNew⟩ | ⟨-, hBefore⟩
    · cases hNew
    · exact (hNone other _ hBefore trivial).elim

/-- A move by which the caller lets go of the lock; it may publish a value. -/
theorem moved_unlock (hGuarded : Guarded machine) (hOld : machine.At caller old)
    (hHolds : old.Holds) (memo : Memo α) (hReleased : ¬new.Holds) :
    Guarded ({ machine with memo, holder := none }.move caller new) := by
  have hHolder := (hGuarded.holder_iff hOld).mpr hHolds
  have hNone : ∀ other stage, other ≠ caller → machine.At other stage → ¬stage.Commits :=
    fun other stage hOther hAt =>
      hGuarded.not_commits_of_holder_ne hAt (by simp [hHolder, Ne.symm hOther])
  refine hGuarded.moved hOld rfl ?_ ?_ ?_ ?_
  · intro other hOther
    simp [move, hHolder, Ne.symm hOther]
  · simp [move, hReleased]
  · rintro ⟨other, stage, hAt, hStage⟩
    rcases (at_moved hOld rfl).mp hAt with ⟨-, rfl⟩ | ⟨hOther, hBefore⟩
    · exact (hReleased hStage.holds).elim
    · exact (hNone other stage hOther hBefore hStage).elim
  · intro other call hAt
    rcases (at_moved hOld rfl).mp hAt with ⟨-, rfl⟩ | ⟨hOther, hBefore⟩
    · exact (hReleased trivial).elim
    · exact (hNone other _ hOther hBefore trivial).elim

/-- A move by which the caller starts the supplier. -/
theorem moved_launch (hGuarded : Guarded machine) (hOld : machine.At caller .starting) :
    Guarded ({ machine with calls := machine.calls + 1 }.move caller
      (.computing (machine.calls + 1))) := by
  have hHolder := (hGuarded.holder_iff hOld).mpr trivial
  refine hGuarded.moved hOld rfl (fun other _ => Iff.rfl) (by simp [move, hHolder, Stage.Holds])
    (fun _ => hGuarded.stale caller _ hOld trivial) ?_
  intro other call hAt
  rcases (at_moved hOld rfl).mp hAt with ⟨-, hNew⟩ | ⟨hOther, hBefore⟩
  · exact Stage.computing.inj hNew
  · exact (hGuarded.not_commits_of_holder_ne hBefore (by simp [hHolder, Ne.symm hOther])
      trivial).elim

/-- Every move of a caller keeps the invariant. -/
theorem moves {supply : Nat → α} (hGuarded : Guarded machine) (hOld : machine.At caller old)
    (hMoves : Moves supply machine caller old new next) : Guarded next := by
  cases hMoves with
  | hit hFresh => exact hGuarded.moved_quiet hOld Iff.rfl False.elim (by simp)
  | miss hStale => exact hGuarded.moved_quiet hOld Iff.rfl False.elim (by simp)
  | lock hFree => exact hGuarded.moved_lock hOld hFree
  | taken hTaken => exact hGuarded.moved_quiet hOld Iff.rfl False.elim (by simp)
  | rehit hFresh => exact hGuarded.moved_unlock hOld trivial _ id
  | remiss hStale => exact hGuarded.moved_quiet hOld Iff.rfl (fun _ => hStale) (by simp)
  | launch => exact hGuarded.moved_launch hOld
  | publish hDate => exact hGuarded.moved_unlock hOld trivial _ id
  | breakOff hDate => exact hGuarded.moved_unlock hOld trivial _ id
  | read hCurrent => exact hGuarded.moved_quiet hOld Iff.rfl False.elim (by simp)
  | wait hEmpty => exact hGuarded.moved_quiet hOld Iff.rfl False.elim (by simp)
  | acquire hFree => exact hGuarded.moved_lock hOld hFree

/-- Every event keeps the invariant. -/
theorem happens {supply : Nat → α} {event : Event} (hGuarded : Guarded machine)
    (hHappens : Happens supply machine event next) : Guarded next := by
  cases hHappens with
  | arrive =>
      refine ⟨fun other => ?_, fun other stage hAt hCommits => ?_, fun other call hAt => ?_⟩
      · rw [show machine.arrive.holder = machine.holder from rfl, hGuarded.holder]
        constructor
        · rintro ⟨stage, hAt, hHolds⟩
          exact ⟨stage, at_arrive.mpr (.inl hAt), hHolds⟩
        · rintro ⟨stage, hAt, hHolds⟩
          rcases at_arrive.mp hAt with hBefore | ⟨-, rfl⟩
          · exact ⟨stage, hBefore, hHolds⟩
          · exact hHolds.elim
      · rcases at_arrive.mp hAt with hBefore | ⟨-, rfl⟩
        · exact hGuarded.stale other stage hBefore hCommits
        · exact hCommits.elim
      · rcases at_arrive.mp hAt with hBefore | ⟨-, hNew⟩
        · exact hGuarded.latest other call hBefore
        · cases hNew
  | expire => exact ⟨hGuarded.holder, fun _ _ _ _ => stale_expire _ _, hGuarded.latest⟩
  | advance milliseconds =>
      exact ⟨hGuarded.holder, fun other stage hAt hCommits =>
        (hGuarded.stale other stage hAt hCommits).mono (Nat.le_add_right _ _), hGuarded.latest⟩
  | step hOld hMoves => exact hGuarded.moves hOld hMoves

end Guarded

end Machine

end ProcessCensus.Memo
