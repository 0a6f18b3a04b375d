import ProcessCensus.Proofs.Session.History

/-!
What a snapshot shows. Whatever a source answers, and however the wall clock moves, every snapshot
shows the last look at its process and nothing else: either nothing is known of the process, or it
was alive, and all its attributes are those that were answered at that one look, with the time it
had been up by then.
-/

namespace ProcessCensus

/-- What the wall clock showed at a look, in milliseconds of the epoch. -/
def Look.now (look : Look) : UInt64 :=
  UInt64.ofNat look.clock.toNat

theorem Attributes.toNat_elapsed (start now : UInt64) :
    (elapsed start now).toNat = if start = 0 then 0 else now.toNat - start.toNat := by
  rw [elapsed]
  by_cases hStart : start = 0
  case pos => rw [if_pos (.inl hStart), if_pos hStart]; rfl
  case neg =>
    rw [if_neg hStart]
    by_cases hBefore : now < start
    case pos =>
      have hLe : now.toNat ≤ start.toNat := Nat.le_of_lt (UInt64.lt_iff_toNat_lt.mp hBefore)
      rw [if_pos (.inr hBefore), Nat.sub_eq_zero_of_le hLe]
      rfl
    case neg =>
      rw [if_neg (not_or.mpr ⟨hStart, hBefore⟩)]
      exact UInt64.toNat_sub_of_le _ _ (UInt64.not_lt.mp hBefore)

/-- The snapshot is one of the process that was looked at. Nothing is known of it if there was no
answer, or none that a live process gives. Otherwise every attribute is the one in that answer, but
for the time the process has been up, which is reckoned from its start and the time of the look. -/
structure Look.ShownBy (look : Look) (snapshot : Snapshot) : Prop where
  pid : snapshot.pid = look.pid
  attributes :
    (snapshot.attributes = .unknown ∧ snapshot.attributes.state = .invalid ∧
        snapshot.attributes.threads = 0 ∧
        ∀ a, look.answer = some a → a.state = .invalid ∨ a.threads = 0) ∨
      (snapshot.attributes.state ≠ .invalid ∧ 0 < snapshot.attributes.threads ∧
        ∃ a upTime, look.answer = some a ∧ snapshot.attributes = { a with upTime } ∧
          upTime.toNat = if a.startTime = 0 then 0 else look.now.toNat - a.startTime.toNat)

theorem Look.shownBy_snapshot (look : Look) (release : Release) :
    look.ShownBy (look.snapshot release) := by
  have hAttributes : (look.snapshot release).attributes = .validated look.answer look.now := rfl
  have hPid : (look.snapshot release).pid = look.pid := rfl
  generalize look.snapshot release = snapshot at hAttributes hPid
  refine ⟨hPid, ?_⟩
  cases hAnswer : look.answer with
  | none =>
      rw [hAnswer] at hAttributes
      refine .inl ⟨hAttributes, by rw [hAttributes]; rfl, by rw [hAttributes]; rfl, fun a hA => ?_⟩
      cases hA
  | some a =>
      rw [hAnswer, Attributes.validated] at hAttributes
      split at hAttributes
      case isTrue hLive =>
        obtain ⟨hThreads, hState⟩ := Attributes.isLive_iff.mp hLive
        refine .inr ⟨?_, ?_, a, _, rfl, hAttributes, Attributes.toNat_elapsed _ _⟩
        · rw [hAttributes]
          exact hState
        · rw [hAttributes]
          exact hThreads
      case isFalse hDead =>
        refine .inl ⟨hAttributes, by rw [hAttributes]; rfl, by rw [hAttributes]; rfl,
          fun b hB => ?_⟩
        obtain rfl := Option.some.inj hB
        rcases not_and_or.mp (mt Attributes.isLive_iff.mpr hDead) with hThreads | hState
        · exact .inr (by simpa using hThreads)
        · exact .inl (not_not.mp hState)

/-- To read arguments leaves what is shown as it is. -/
theorem Look.ShownBy.informs {look : Look} {snapshot : Snapshot} (hShown : look.ShownBy snapshot)
    (command : Session.Command) (invocation : Invocation) :
    look.ShownBy (command.informs invocation snapshot) := by
  cases command with
  | commandLine => exact ⟨hShown.pid, hShown.attributes⟩
  | get | current | probe | refresh | arguments | environment | copy =>
      exact ⟨hShown.pid, hShown.attributes⟩

namespace Session

section Step

variable {κ : Type} {release : Release} {held next : Nat → Option Snapshot} {log : Log}
  {reply : Except Abort Reply}

theorem Step.length_log_le {command : Command}
    (hStep : Step release held (.command command : Deed κ) reply log next) : log.length ≤ 1 := by
  cases hStep <;> simp

theorem Step.abort {deed : Deed κ} {abort : Abort}
    (hStep : Step release held deed (.error abort) log next) : next = held := by
  cases hStep <;> rfl

theorem Step.refreshed_held {slot : Nat} {valid : Bool} {snapshot : Snapshot}
    (hStep : Step release held (.command (.refresh slot) : Deed κ)
      (.ok (.answer (.refreshed valid snapshot))) log next) :
    next slot = some snapshot ∧ (valid = true ↔ snapshot.attributes.state ≠ .invalid) := by
  cases hStep with
  | refreshed => exact ⟨Function.update_self .., by simp [Snapshot.isValid]⟩

/-- A refresh has a reply if the source has an answer. -/
theorem act_refresh {session : Session κ} {slot : Nat} {snapshot : Snapshot}
    (hHeld : session.slot? slot = some snapshot) {outcome : Except Abort (Option Attributes)}
    {after : Host κ}
    (hLook : (session.census.source.attributes snapshot.pid snapshot.release).on session.host =
      (outcome, after)) :
    (session.act (.command (.refresh slot))).1 = outcome.map fun answer =>
      let taken := Snapshot.taken snapshot.release after.clock snapshot.pid answer
      .answer (.refreshed taken.isValid taken) := by
  have hRun := @run_eq_onSlot _ session (.refresh slot) _ _ rfl hHeld
  have hOn := congrArg (fun run => Run.on run session.host) hRun
  simp only [Run.on_map, Command.onSlot, Snapshot.refresh, Snapshot.probe, Run.on_bind,
    hLook] at hOn
  cases outcome with
  | error abort => rw [act_aborted hOn]; rfl
  | ok answer => rw [act_kept hOn]; rfl

theorem Step.get {pid : Int32} {slot : Nat} {snapshot : Snapshot}
    (hStep : Step release held (.command (.get pid slot) : Deed κ)
      (.ok (.answer (.seen (some snapshot)))) log next) :
    next slot = some snapshot ∧ snapshot.pid = pid ∧ snapshot.attributes.state ≠ .invalid := by
  cases hStep with
  | seen hSees hValid =>
      have hLive := hValid fun _ _ hOther => by cases hOther
      exact ⟨Function.update_self .., hSees.symm, by simpa [Snapshot.isValid] using hLive⟩

theorem Step.list {listing : Listing} {first : Nat} {snapshots : List Snapshot}
    (hStep : Step release held (.list listing first : Deed κ) (.ok (.listed snapshots)) log next)
    (i : Nat) (hLt : i < snapshots.length) :
    next (first + i) = some snapshots[i] ∧ snapshots[i].attributes.state ≠ .invalid := by
  cases hStep with
  | listed hSeen =>
      have hValid := (hSeen _ (List.getElem_mem hLt)).1
      refine ⟨?_, by simpa [Snapshot.isValid] using hValid⟩
      rw [spread, if_pos (Nat.le_add_right first i), Nat.add_sub_cancel_left,
        List.getElem?_eq_getElem hLt]
      rfl

end Step

namespace History

variable {κ : Type} (history : History κ)

/-- The last look at the process in a slot, before the deed with this number. -/
inductive LastLook : Nat → Nat → Look → Prop
  /-- The snapshot was taken in the last deed. -/
  | taken {n slot : Nat} {snapshot : Snapshot} {look : Look}
      (hTaken : history.taken n slot = some snapshot) (hPid : look.pid = snapshot.pid)
      (hLook : .looked look ∈ history.log n) : LastLook (n + 1) slot look
  | copied {n source target : Nat} {look : Look} (hCopies : history.Copies n source target)
      (hLook : LastLook n source look) : LastLook (n + 1) target look
  | kept {n slot : Nat} {look : Look} (hKept : ¬history.Renews n slot)
      (hLook : LastLook n slot look) : LastLook (n + 1) slot look

theorem exists_lastLook {n slot : Nat} {snapshot : Snapshot}
    (hHeld : history.held n slot = some snapshot) :
    ∃ look, history.LastLook n slot look ∧ look.ShownBy snapshot := by
  -- Back along what became of the slot, to the deed in which the snapshot was taken. A copy leads to
  -- another slot, hence the induction is for all of them.
  induction n generalizing slot snapshot with
  | zero => cases hHeld
  | succ n ih =>
      have hFate := history.fate n slot
      rw [hHeld] at hFate
      cases hFate with
      | @taken look release hTaken hLook =>
          exact ⟨look, .taken hTaken rfl hLook, look.shownBy_snapshot release⟩
      | copied hCopy _ hSource =>
          obtain ⟨look, hLook, hShown⟩ := ih hSource
          exact ⟨look, .copied ⟨hCopy, Option.isSome_of_eq_some hSource⟩ hLook, hShown⟩
      | known hDeed hAsks hBefore | fetched hDeed hAsks hBefore =>
          obtain ⟨look, hLook, hShown⟩ := ih hBefore
          have hKept := history.not_renews_of_asks hDeed hAsks slot
          exact ⟨look, .kept hKept hLook, hShown.informs _ _⟩
      | same hBefore hTaken hCopy =>
          obtain ⟨look, hLook, hShown⟩ := ih hBefore
          exact ⟨look, .kept (history.not_renews_of_same hTaken hCopy) hLook, hShown⟩

/-- What may be relied on in a history, whatever the source answers and whatever the clock shows. -/
structure Reliable : Prop where
  /-- A snapshot shows what was seen at the last look at its process. -/
  shows {n slot : Nat} {snapshot : Snapshot} : history.held n slot = some snapshot →
    ∃ look, history.LastLook n slot look ∧ look.ShownBy snapshot
  /-- A command looks at a process once at most. -/
  once {n : Nat} {command : Command} : history.deed n = .command command →
    (history.log n).length ≤ 1
  /-- As long as no other snapshot takes its place, a snapshot is one of the same process. -/
  pid {n slot : Nat} {snapshot : Snapshot} : history.held n slot = some snapshot →
    history.deed n = .command (.refresh slot) ∨ ¬history.Renews n slot →
    ∃ next, history.held (n + 1) slot = some next ∧ next.pid = snapshot.pid
  /-- What is asked for by its pid is there, and alive. -/
  get {n slot : Nat} {pid : Int32} {snapshot : Snapshot} :
    history.deed n = .command (.get pid slot) →
    history.reply n = .ok (.answer (.seen (some snapshot))) →
    history.held (n + 1) slot = some snapshot ∧ snapshot.pid = pid ∧
      snapshot.attributes.state ≠ .invalid
  /-- So is what is listed. -/
  list {n slot : Nat} {listing : Listing} {snapshots : List Snapshot} :
    history.deed n = .list listing slot → history.reply n = .ok (.listed snapshots) →
    ∀ i (_ : i < snapshots.length), history.held (n + 1) (slot + i) = some snapshots[i] ∧
      snapshots[i].attributes.state ≠ .invalid
  /-- A refresh tells whether the process is still there. It breaks off if the source does. -/
  refresh {n slot : Nat} {snapshot : Snapshot} : history.deed n = .command (.refresh slot) →
    history.held n slot = some snapshot →
    match ((history.census.source.attributes snapshot.pid snapshot.release).on
      (history.session n).host).1 with
    | .error abort => history.reply n = .error abort
    | .ok _ => ∃ valid next, history.reply n = .ok (.answer (.refreshed valid next)) ∧
        history.held (n + 1) slot = some next ∧
        (valid = true ↔ next.attributes.state ≠ .invalid)
  /-- A deed that breaks off leaves all snapshots as they were. -/
  abort {n : Nat} {abort : Abort} : history.reply n = .error abort →
    history.held (n + 1) = history.held n

theorem reliable : history.Reliable where
  shows := history.exists_lastLook
  once hDeed := (hDeed ▸ history.step _ : Step _ _ (.command _) _ _ _).length_log_le
  pid := history.pid_kept
  get := by
    intro n slot pid snapshot hDeed hReply
    have hStep := history.step n
    rw [hDeed, hReply] at hStep
    exact hStep.get
  list := by
    intro n slot listing snapshots hDeed hReply
    have hStep := history.step n
    rw [hDeed, hReply] at hStep
    exact hStep.list
  refresh := by
    intro n slot snapshot hDeed hHeld
    rcases hLook : (history.census.source.attributes snapshot.pid snapshot.release).on
      (history.session n).host with ⟨outcome, after⟩
    have hAct := act_refresh hHeld (history.census_session n ▸ hLook)
    rw [← hDeed] at hAct
    change history.reply n = _ at hAct
    cases outcome with
    | error abort => exact hAct
    | ok answer =>
        have hStep := history.step n
        rw [hDeed, hAct] at hStep
        exact ⟨_, _, hAct, hStep.refreshed_held⟩
  abort := by
    intro n abort hReply
    have hStep := history.step n
    rw [hReply] at hStep
    exact hStep.abort

end History

end Session

end ProcessCensus
