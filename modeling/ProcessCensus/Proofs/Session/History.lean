import ProcessCensus.Proofs.Session.Step

/-!
Histories of a caller: the session at every moment, and the deed that leads to the next moment. The
source may answer differently at every call, and the system and the wall clock may change in between.
A caller that stops is one that does nothing but wait from then on.
-/

namespace ProcessCensus.Session

variable {κ : Type}

/-- The snapshot that was taken in a deed with this reply and is kept in the slot. -/
def Deed.taken (deed : Deed κ) (reply : Except Abort Reply) (slot : Nat) : Option Snapshot :=
  match deed, reply with
  | .command task, .ok (.answer (.seen snapshot)) => if task.target = slot then snapshot else none
  | .command task, .ok (.answer (.refreshed _ snapshot)) =>
    if task.target = slot then some snapshot else none
  | .list _ first, .ok (.listed snapshots) => if first ≤ slot then snapshots[slot - first]? else none
  | _, _ => none

/-- What becomes of one slot in a deed. -/
inductive Fate (held : Nat → Option Snapshot) (deed : Deed κ)
    (reply : Except Abort Reply) (log : Log) (slot : Nat) : Option Snapshot → Prop
  | taken {look : Look} {release : Release}
      (hTaken : deed.taken reply slot = some (look.snapshot release)) (hLook : .looked look ∈ log)
      (hCopy : ∀ source, deed ≠ .command (.copy source slot))
      (hAsks : ∀ command, deed = .command command → command.asks = none) :
      Fate held deed reply log slot (some (look.snapshot release))
  | copied {source : Nat} {snapshot : Snapshot} (hCopy : deed = .command (.copy source slot))
      (hTaken : deed.taken reply slot = none) (hHeld : held source = some snapshot) :
      Fate held deed reply log slot (some snapshot)
  | known {command : Command} {snapshot : Snapshot} {invocation : Invocation}
      (hDeed : deed = .command command) (hAsks : command.asks = some slot)
      (hHeld : held slot = some snapshot) (hKnown : snapshot.invocation = some invocation)
      (hReply : reply = .ok (.answer (command.tells invocation))) (hLog : log = []) :
      Fate held deed reply log slot (some (command.informs invocation snapshot))
  | fetched {command : Command} {snapshot : Snapshot} {invocation : Invocation}
      (hDeed : deed = .command command) (hAsks : command.asks = some slot)
      (hHeld : held slot = some snapshot) (hUnknown : snapshot.invocation = none)
      (hReply : reply = .ok (.answer (command.tells invocation)))
      (hLog : log = [.asked snapshot.pid (.ok invocation)]) :
      Fate held deed reply log slot (some (command.informs invocation snapshot))
  | same {kept : Option Snapshot} (hHeld : held slot = kept)
      (hTaken : deed.taken reply slot = none)
      (hCopy : ∀ source, deed = .command (.copy source slot) → held source = none)
      (hAsks : ∀ command, deed = .command command → command.asks = some slot →
        ∀ pid invocation, log ≠ [.asked pid (.ok invocation)]) :
      Fate held deed reply log slot kept

theorem Command.sees.ne_copy {command : Command} {pid : Int32} (hSees : command.sees pid)
    {source target : Nat} : command ≠ .copy source target := by
  rintro rfl
  exact hSees

theorem Command.sees.asks {command : Command} {pid : Int32} (hSees : command.sees pid) :
    command.asks = none := by
  cases command with
  | get | current | probe => rfl
  | refresh | arguments | environment | commandLine | copy => cases hSees

/-- To tell something of a snapshot is not to take one. -/
theorem Deed.taken_tells (command : Command) (invocation : Invocation) (slot : Nat) :
    (@Deed.command κ command).taken (.ok (.answer (command.tells invocation))) slot = none := by
  cases command <;> rfl

theorem Look.asked_notMem (looks : List Look) (pid : Int32) (outcome : Except Abort Invocation) :
    Exchange.asked pid outcome ∉ looks.map .looked := by
  simp

theorem Look.log_ne_asked (looks : List Look) (pid : Int32) (outcome : Except Abort Invocation) :
    looks.map .looked ≠ [Exchange.asked pid outcome] :=
  fun hLog => asked_notMem looks pid outcome (hLog ▸ List.mem_cons_self)

/-- A slot is left as it was by what is no command and takes no snapshot for it. -/
theorem Fate.untouched {held : Nat → Option Snapshot} {deed : Deed κ} {reply : Except Abort Reply}
    {log : Log} {slot : Nat} {kept : Option Snapshot} (hHeld : held slot = kept)
    (hTaken : deed.taken reply slot = none) (hDeed : ∀ command, deed ≠ .command command) :
    Fate held deed reply log slot kept :=
  .same hHeld hTaken (fun _ hCopy => absurd hCopy (hDeed _))
    fun command hCommand => absurd hCommand (hDeed command)

theorem Step.fate {release : Release} {held next : Nat → Option Snapshot} {deed : Deed κ}
    {reply : Except Abort Reply} {log : Log} (hStep : Step release held deed reply log next)
    (slot : Nat) : Fate held deed reply log slot (next slot) := by
  cases hStep with
  | meanwhile => exact .untouched rfl rfl fun _ hDeed => by cases hDeed
  | @idle command needed hNeeds hHeld =>
      refine .same rfl rfl (fun source hCopy => ?_)
        fun _ _ _ pid r => Look.log_ne_asked [] pid (.ok r)
      cases hCopy
      exact Option.some.inj hNeeds ▸ hHeld
  | @broken command abort hLooks =>
      refine .same rfl rfl (fun source hCopy => ?_)
        fun _ _ _ pid r => Look.log_ne_asked [] pid (.ok r)
      cases hCopy
      cases hLooks
  | unlisted => exact .untouched rfl rfl fun _ hDeed => by cases hDeed
  | refused hAsks hHeld hUnknown =>
      refine .same rfl rfl (fun source hCopy => ?_) fun _ _ _ pid invocation => by simp
      cases hCopy
      cases hAsks
  | @seen command look hSees hValid =>
      by_cases hTarget : slot = command.target
      case pos =>
        subst hTarget
        rw [Function.update_self]
        exact .taken (if_pos rfl) List.mem_cons_self
          (fun source hCopy => hSees.ne_copy (Deed.command.inj hCopy))
          fun other hDeed => Deed.command.inj hDeed ▸ hSees.asks
      case neg =>
        rw [Function.update_of_ne hTarget]
        exact .same rfl (if_neg (Ne.symm hTarget))
          (fun source hCopy => absurd (Deed.command.inj hCopy) hSees.ne_copy)
          fun _ _ _ pid r => Look.log_ne_asked [look] pid (.ok r)
  | @unseen command look hSees hInvalid =>
      exact .same rfl (ite_self none)
        (fun source hCopy => absurd (Deed.command.inj hCopy) hSees.ne_copy)
        fun _ _ _ pid r => Look.log_ne_asked [look] pid (.ok r)
  | @refreshed target snapshot look hHeld hPid =>
      by_cases hTarget : slot = target
      case pos =>
        subst hTarget
        rw [Function.update_self]
        exact .taken (if_pos rfl) List.mem_cons_self (fun _ hDeed => by cases hDeed)
          fun other hDeed => Deed.command.inj hDeed ▸ rfl
      case neg =>
        rw [Function.update_of_ne hTarget]
        exact .same rfl (if_neg (Ne.symm hTarget)) (fun _ hDeed => by cases hDeed)
          fun _ _ _ pid r => Look.log_ne_asked [look] pid (.ok r)
  | @copied source target snapshot hHeld =>
      by_cases hTarget : slot = target
      case pos =>
        subst hTarget
        rw [Function.update_self]
        exact .copied rfl rfl hHeld
      case neg =>
        rw [Function.update_of_ne hTarget]
        refine .same rfl rfl (fun other hCopy => ?_)
          fun _ _ _ pid r => Look.log_ne_asked [] pid (.ok r)
        cases hCopy
        exact absurd rfl hTarget
  | @known command asked snapshot invocation hAsks hHeld hKnown =>
      by_cases hTarget : slot = asked
      case pos =>
        subst hTarget
        rw [Function.update_self]
        exact .known rfl hAsks hHeld hKnown rfl rfl
      case neg =>
        rw [Function.update_of_ne hTarget]
        refine .same rfl (Deed.taken_tells _ _ _) (fun other hCopy => ?_)
          fun _ _ _ pid r => Look.log_ne_asked [] pid (.ok r)
        · cases hCopy
          cases hAsks
  | @fetched command asked snapshot invocation hAsks hHeld hUnknown =>
      by_cases hTarget : slot = asked
      case pos =>
        subst hTarget
        rw [Function.update_self]
        exact .fetched rfl hAsks hHeld hUnknown rfl rfl
      case neg =>
        rw [Function.update_of_ne hTarget]
        refine .same rfl (Deed.taken_tells _ _ _) (fun other hCopy => ?_)
          (fun other hDeed hOther => ?_)
        · cases hCopy
          cases hAsks
        · cases hDeed
          exact absurd (Option.some.inj (hOther.symm.trans hAsks)) hTarget
  | @listed listing first snapshots looks hSeen =>
      rw [spread]
      split
      case isTrue hFirst =>
        cases hSnapshot : snapshots[slot - first]? with
        | none =>
            refine .untouched rfl ?_ fun _ hDeed => by cases hDeed
            rw [Deed.taken, if_pos hFirst, hSnapshot]
        | some snapshot =>
            obtain ⟨-, look, hLook, rfl⟩ := hSeen snapshot (List.mem_of_getElem? hSnapshot)
            refine .taken ?_ hLook (fun _ hDeed => by cases hDeed) fun _ hDeed => by cases hDeed
            rw [Deed.taken, if_pos hFirst, hSnapshot]
      case isFalse hFirst => exact .untouched rfl (if_neg hFirst) fun _ hDeed => by cases hDeed

/-- What is taken is kept, and it was taken by looking. -/
theorem Fate.of_taken {held : Nat → Option Snapshot} {deed : Deed κ} {reply : Except Abort Reply}
    {log : Log} {slot : Nat} {kept : Option Snapshot} (hFate : Fate held deed reply log slot kept)
    {snapshot : Snapshot} (hTaken : deed.taken reply slot = some snapshot) :
    kept = some snapshot ∧ (∀ command, deed = .command command → command.asks = none) ∧
      (∀ source, deed ≠ .command (.copy source slot)) ∧
      ∃ look release, .looked look ∈ log ∧ snapshot = look.snapshot release := by
  cases hFate with
  | @taken look release hSnapshot hLook hCopy hAsks =>
      obtain rfl := Option.some.inj (hSnapshot.symm.trans hTaken)
      exact ⟨rfl, hAsks, hCopy, look, release, hLook, rfl⟩
  | copied _ hNone => cases hNone.symm.trans hTaken
  | known hDeed _ _ _ hReply | fetched hDeed _ _ _ hReply =>
      rw [hDeed, hReply, Deed.taken_tells] at hTaken
      cases hTaken
  | same _ hNone => cases hNone.symm.trans hTaken

theorem Step.refresh_pid {release : Release} {held next : Nat → Option Snapshot}
    {reply : Except Abort Reply} {log : Log} {slot : Nat} {snapshot : Snapshot}
    (hStep : Step release held (.command (.refresh slot) : Deed κ) reply log next)
    (hHeld : held slot = some snapshot) :
    ∃ after, next slot = some after ∧ after.pid = snapshot.pid := by
  cases hStep with
  | idle | broken => exact ⟨snapshot, hHeld, rfl⟩
  | @refreshed _ before look hBefore hPid =>
      obtain rfl := Option.some.inj (hBefore.symm.trans hHeld)
      exact ⟨_, Function.update_self .., hPid⟩
  | seen hSees | unseen hSees => cases hSees
  | known hAsks | fetched hAsks | refused hAsks => cases hAsks

@[simp] theorem census_keepAll (session : Session κ) (first : Nat) (snapshots : List Snapshot) :
    (session.keepAll first snapshots).census = session.census := by
  induction snapshots generalizing session first with
  | nil => rfl
  | cons snapshot snapshots ih => exact ih (session.keep first snapshot) (first + 1)

theorem census_act (session : Session κ) (deed : Deed κ) :
    (session.act deed).2.census = session.census := by
  cases deed with
  | meanwhile => rfl
  | command command =>
      rw [act, Session.command]
      have hCensus : (session.run (command.run session.census
        (command.needs.bind session.slot?))).2.census = session.census := rfl
      generalize session.run _ = reached at hCensus ⊢
      obtain ⟨_ | ⟨answer, _ | snapshot⟩, after⟩ := reached <;> exact hCensus
  | list listing slot =>
      rw [act]
      have hCensus : (session.run (listing.run session.census)).2.census = session.census := rfl
      generalize session.run _ = reached at hCensus ⊢
      obtain ⟨_ | snapshots, after⟩ := reached
      · exact hCensus
      · exact (census_keepAll after slot snapshots).trans hCensus

/-- A caller of a census, the host that it starts with, and what it does or what happens, one after
the other. -/
structure History (κ : Type) where
  census : Census κ
  start : Host κ
  deed : Nat → Deed κ

namespace History

variable (history : History κ)

/-- The session before the deed with this number. At first no snapshot is kept. -/
def session : Nat → Session κ
  | 0 => { census := history.census, host := history.start, slots := [] }
  | n + 1 => ((session n).act (history.deed n)).2

/-- The reply to a deed. -/
def reply (n : Nat) : Except Abort Reply :=
  ((history.session n).act (history.deed n)).1

/-- What the source is asked in the course of a deed. -/
def log (n : Nat) : Log :=
  ((history.session n).watched.act (history.deed n).watched).2.host.log

/-- What is kept in a slot before a deed. -/
def held (n slot : Nat) : Option Snapshot :=
  (history.session n).slot? slot

theorem census_session (n : Nat) : (history.session n).census = history.census := by
  induction n with
  | zero => rfl
  | succ n ih => exact (census_act _ _).trans ih

theorem step_of_coherent {n : Nat}
    (hCoherent : ∀ slot snapshot, history.held n slot = some snapshot → snapshot.Coherent) :
    Step history.census.release (history.held n) (history.deed n) (history.reply n) (history.log n)
      (history.held (n + 1)) := by
  obtain ⟨hReply, hSlots, -⟩ := act_reflects (history.session n) (history.deed n)
  have hSteps := act_steps (history.session n) hCoherent (history.deed n)
  rw [Steps, hReply, hSlots, census_session] at hSteps
  exact hSteps

theorem coherent (n slot : Nat) (snapshot : Snapshot)
    (hHeld : history.held n slot = some snapshot) : snapshot.Coherent := by
  -- What a deed comes to is known only for coherent snapshots, so the step of each moment is taken
  -- from the hypothesis on the moment before.
  induction n generalizing slot snapshot with
  | zero => cases hHeld
  | succ n ih =>
      have hFate := (history.step_of_coherent ih).fate slot
      rw [hHeld] at hFate
      cases hFate with
      | taken => exact nofun
      | copied hCopy hTaken hSource => exact ih _ _ hSource
      | known hDeed hAsks hBefore hKnown =>
          exact (ih _ _ hBefore).informs (fun r hR => Option.some.inj (hR.symm.trans hKnown)) _
      | fetched hDeed hAsks hBefore hUnknown =>
          exact (ih _ _ hBefore).informs (fun r hR => nomatch hR.symm.trans hUnknown) _
      | same hBefore => exact ih _ _ hBefore

/-- Every deed of a history is one of the steps. -/
theorem step (n : Nat) :
    Step history.census.release (history.held n) (history.deed n) (history.reply n) (history.log n)
      (history.held (n + 1)) :=
  history.step_of_coherent (history.coherent n)

theorem fate (n slot : Nat) :
    Fate (history.held n) (history.deed n) (history.reply n) (history.log n) slot
      (history.held (n + 1) slot) :=
  (history.step n).fate slot

/-- The snapshot that is taken in a deed and kept in the slot. -/
def taken (n slot : Nat) : Option Snapshot :=
  (history.deed n).taken (history.reply n) slot

/-- In this deed a snapshot is copied from one slot to another. -/
structure Copies (n source target : Nat) : Prop where
  deed : history.deed n = .command (.copy source target)
  held : (history.held n source).isSome

/-- In this deed another snapshot takes the place of the one in the slot, if there was one. -/
def Renews (n slot : Nat) : Prop :=
  (history.taken n slot).isSome ∨ ∃ source, history.Copies n source slot

theorem held_of_taken {n slot : Nat} {snapshot : Snapshot}
    (hTaken : history.taken n slot = some snapshot) : history.held (n + 1) slot = some snapshot :=
  ((history.fate n slot).of_taken hTaken).1

theorem not_renews_of_same {n slot : Nat}
    (hTaken : (history.deed n).taken (history.reply n) slot = none)
    (hCopy : ∀ source, history.deed n = .command (.copy source slot) →
      history.held n source = none) : ¬history.Renews n slot := by
  rintro (hSome | ⟨source, hDeed, hHeld⟩)
  · rw [taken, hTaken] at hSome
    cases hSome
  · rw [hCopy source hDeed] at hHeld
    cases hHeld

/-- To ask a process for its arguments is no new look at any process. -/
theorem not_renews_of_asks {n asked : Nat} {command : Command}
    (hDeed : history.deed n = .command command) (hAsks : command.asks = some asked) (slot : Nat) :
    ¬history.Renews n slot := by
  rintro (hTaken | ⟨source, hCopy, -⟩)
  · obtain ⟨snapshot, hTaken⟩ := Option.isSome_iff_exists.mp hTaken
    have hNone := ((history.fate n slot).of_taken hTaken).2.1 command hDeed
    cases hNone.symm.trans hAsks
  · obtain rfl := Deed.command.inj (hDeed.symm.trans hCopy)
    cases hAsks

/-- A copy is the snapshot that is copied, with all that is kept in it. -/
theorem Copies.held_target {n source target : Nat} (hCopies : history.Copies n source target) :
    history.held (n + 1) target = history.held n source := by
  have hFate := history.fate n target
  generalize history.held (n + 1) target = kept at hFate ⊢
  cases hFate with
  | taken _ _ hCopy => exact absurd hCopies.deed (hCopy source)
  | copied hCopy _ hBefore =>
      cases hCopies.deed.symm.trans hCopy
      exact hBefore.symm
  | known hDeed hAsks | fetched hDeed hAsks =>
      cases hCopies.deed.symm.trans hDeed
      cases hAsks
  | same _ _ hCopy =>
      have hHeld := hCopies.held
      rw [hCopy source hCopies.deed] at hHeld
      cases hHeld

/-- A snapshot that no other one replaces stays the same, but for what is read of its process. -/
theorem informed_of_kept {n slot : Nat} {snapshot : Snapshot}
    (hHeld : history.held n slot = some snapshot) (hKept : ¬history.Renews n slot) :
    ∃ later, history.held (n + 1) slot = some later ∧ snapshot.Informed later := by
  have hFate := history.fate n slot
  generalize history.held (n + 1) slot = kept at hFate ⊢
  cases hFate with
  | taken hTaken => exact absurd (.inl (Option.isSome_of_eq_some hTaken)) hKept
  | @copied source _ hCopy _ hSource =>
      have hCopies : history.Copies n source slot := ⟨hCopy, Option.isSome_of_eq_some hSource⟩
      exact absurd (.inr ⟨source, hCopies⟩) hKept
  | @known command before r _ _ hBefore hKnown =>
      obtain rfl := Option.some.inj (hBefore.symm.trans hHeld)
      have hSame : ∀ r', before.invocation = some r' → r' = r :=
        fun r' hOther => Option.some.inj (hOther.symm.trans hKnown)
      exact ⟨_, rfl, Command.informed_informs hSame command⟩
  | @fetched command before r _ _ hBefore hUnknown =>
      obtain rfl := Option.some.inj (hBefore.symm.trans hHeld)
      have hSame : ∀ r', before.invocation = some r' → r' = r :=
        fun r' hOther => nomatch hOther.symm.trans hUnknown
      exact ⟨_, rfl, Command.informed_informs hSame command⟩
  | same hBefore => exact ⟨snapshot, hBefore.symm.trans hHeld, rfl, fun _ => id⟩

/-- A snapshot that no other one replaces stays a snapshot of its process. -/
theorem pid_kept {n slot : Nat} {snapshot : Snapshot} (hHeld : history.held n slot = some snapshot)
    (hKept : history.deed n = .command (.refresh slot) ∨ ¬history.Renews n slot) :
    ∃ next, history.held (n + 1) slot = some next ∧ next.pid = snapshot.pid := by
  rcases hKept with hDeed | hKept
  · have hStep := history.step n
    rw [hDeed] at hStep
    exact hStep.refresh_pid hHeld
  · obtain ⟨later, hLater, hInformed⟩ := history.informed_of_kept hHeld hKept
    exact ⟨later, hLater, hInformed.pid⟩

end History

end ProcessCensus.Session
