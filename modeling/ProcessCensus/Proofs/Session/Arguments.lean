import ProcessCensus.Proofs.Session.History

/-!
What a snapshot tells of arguments and environment. They are read once for as long as the snapshot
is the same one, by the first command that needs them, and every answer until the next look at the
process is told from what was read then. A copy knows what the copied snapshot knew, and from then
on the two have nothing to do with each other.
-/

namespace ProcessCensus.Session

section Step

variable {κ : Type} {release : Release} {held next : Nat → Option Snapshot}
  {reply : Except Abort Reply} {log : Log}

/-- A command tells what is kept, or what the source answers now. -/
theorem Step.asks {command : Command} {slot : Nat} {snapshot : Snapshot}
    (hStep : Step release held (.command command : Deed κ) reply log next)
    (hAsks : command.asks = some slot) (hHeld : held slot = some snapshot) :
    (∃ r, snapshot.invocation = some r ∧ reply = .ok (.answer (command.tells r)) ∧ log = []) ∨
      snapshot.invocation = none ∧ ∃ outcome, log = [.asked snapshot.pid outcome] ∧
        reply = outcome.map fun r => .answer (command.tells r) := by
  cases hStep with
  | idle hNeeds hNone =>
      obtain rfl := Option.some.inj ((Command.needs_of_asks hAsks).1.symm.trans hNeeds)
      cases hHeld.symm.trans hNone
  | broken hLooks =>
      cases command with
      | arguments | environment | commandLine => cases hLooks
      | get | current | probe | refresh | copy => cases hAsks
  | seen hSees | unseen hSees => cases hAsks.symm.trans hSees.asks
  | refreshed | copied => cases hAsks
  | @refused _ asked before abort hOther hBefore hUnknown =>
      obtain rfl := Option.some.inj (hAsks.symm.trans hOther)
      obtain rfl := Option.some.inj (hHeld.symm.trans hBefore)
      exact .inr ⟨hUnknown, .error abort, rfl, rfl⟩
  | @known _ asked before r hOther hBefore hKnown =>
      obtain rfl := Option.some.inj (hAsks.symm.trans hOther)
      obtain rfl := Option.some.inj (hHeld.symm.trans hBefore)
      exact .inl ⟨r, hKnown, rfl, rfl⟩
  | @fetched _ asked before r hOther hBefore hUnknown =>
      obtain rfl := Option.some.inj (hAsks.symm.trans hOther)
      obtain rfl := Option.some.inj (hHeld.symm.trans hBefore)
      exact .inr ⟨hUnknown, .ok r, rfl, rfl⟩

/-- No source is asked for arguments unless a command needs them and they are not kept. -/
theorem Step.asked {deed : Deed κ} {pid : Int32} {outcome : Except Abort Invocation}
    (hStep : Step release held deed reply log next) (hAsked : .asked pid outcome ∈ log) :
    ∃ command slot snapshot, deed = .command command ∧ command.asks = some slot ∧
      held slot = some snapshot ∧ snapshot.pid = pid ∧ snapshot.invocation = none ∧
      log = [.asked pid outcome] ∧ reply = outcome.map fun r => .answer (command.tells r) := by
  cases hStep with
  | meanwhile | idle | broken | copied | known => cases hAsked
  | unlisted | listed => exact absurd hAsked (Look.asked_notMem _ pid outcome)
  | @seen _ look | @unseen _ look | @refreshed _ _ look =>
      exact absurd hAsked (Look.asked_notMem [look] pid outcome)
  | @refused command slot snapshot _ hAsks hHeld hUnknown
  | @fetched command slot snapshot _ hAsks hHeld hUnknown =>
      cases List.mem_singleton.mp hAsked
      exact ⟨command, slot, snapshot, rfl, hAsks, hHeld, rfl, hUnknown, rfl, rfl⟩

/-- A command leaves all slots but its own as they were. -/
theorem Step.alone {command : Command} {slot : Nat}
    (hStep : Step release held (.command command : Deed κ) reply log next)
    (hOther : command.target ≠ slot) : next slot = held slot := by
  cases hStep with
  | idle | broken | refused | unseen => rfl
  | seen | refreshed | copied => exact Function.update_of_ne (Ne.symm hOther) _ _
  | known hAsks | fetched hAsks =>
      obtain ⟨-, rfl⟩ := Command.needs_of_asks hAsks
      exact Function.update_of_ne (Ne.symm hOther) _ _

end Step

namespace History

variable {κ : Type} (history : History κ)

/-- In this deed the caller wants to know something of the arguments or the environment of the
snapshot in the slot. -/
structure Asks (n slot : Nat) (command : Command) : Prop where
  deed : history.deed n = .command command
  asks : command.asks = some slot

/-- What the source answered when it was asked for the arguments and the environment of the snapshot
that is in the slot before the deed with this number. -/
inductive Knows : Nat → Nat → Invocation → Prop
  | fetched {n slot : Nat} {command : Command} {pid : Int32} {r : Invocation}
      (hAsks : history.Asks n slot command) (hLog : history.log n = [.asked pid (.ok r)]) :
      Knows (n + 1) slot r
  | copied {n source target : Nat} {r : Invocation} (hCopies : history.Copies n source target)
      (hKnows : Knows n source r) : Knows (n + 1) target r
  | kept {n slot : Nat} {r : Invocation} (hKept : ¬history.Renews n slot)
      (hKnows : Knows n slot r) : Knows (n + 1) slot r

/-- From the one deed on, and until the other, no other snapshot takes the place of the one in the
slot. -/
def Keeps (m n slot : Nat) : Prop :=
  ∀ k, m ≤ k → k < n → ¬history.Renews k slot

/-- In this time nothing is asked of its arguments and environment either. -/
def Rests (m n slot : Nat) : Prop :=
  history.Keeps m n slot ∧ ∀ k, m ≤ k → k < n → ∀ command, ¬history.Asks k slot command

variable {history}

theorem Keeps.sooner {m n k slot : Nat} (hKeeps : history.Keeps m n slot) (hLe : k ≤ n) :
    history.Keeps m k slot :=
  fun j hFrom hUntil => hKeeps j hFrom (hUntil.trans_le hLe)

theorem Keeps.last {m n slot : Nat} (hKeeps : history.Keeps m (n + 1) slot) (hLe : m ≤ n) :
    ¬history.Renews n slot :=
  hKeeps n hLe (Nat.lt_succ_self n)

theorem Rests.before {m n slot : Nat} (hRests : history.Rests m (n + 1) slot) :
    history.Rests m n slot :=
  ⟨hRests.1.sooner (Nat.le_succ n), fun k hFrom hUntil => hRests.2 k hFrom (Nat.lt_succ_of_lt hUntil)⟩

theorem Rests.last {m n slot : Nat} (hRests : history.Rests m (n + 1) slot) (hLe : m ≤ n)
    (command : Command) : ¬history.Asks n slot command :=
  hRests.2 n hLe (Nat.lt_succ_self n) command

theorem Knows.invocation {n slot : Nat} {r : Invocation} (hKnows : history.Knows n slot r) :
    ∃ snapshot, history.held n slot = some snapshot ∧ snapshot.invocation = some r := by
  induction hKnows with
  | @fetched n slot command pid r hAsks hLog =>
      have hFate := history.fate n slot
      generalize history.held (n + 1) slot = kept at hFate ⊢
      cases hFate with
      | taken _ _ _ hNone => cases (hNone command hAsks.deed).symm.trans hAsks.asks
      | copied hCopy =>
          cases hAsks.deed.symm.trans hCopy
          cases hAsks.asks
      | known _ _ _ _ _ hNil => cases hLog.symm.trans hNil
      | @fetched other before _ _ _ _ _ _ hOther =>
          cases hLog.symm.trans hOther
          exact ⟨_, rfl, other.invocation_informs r before⟩
      | same _ _ _ hNever => exact absurd hLog (hNever command hAsks.deed hAsks.asks pid r)
  | @copied n source target r hCopies _ ih =>
      obtain ⟨snapshot, hSource, hInvocation⟩ := ih
      exact ⟨snapshot, hCopies.held_target.trans hSource, hInvocation⟩
  | @kept n slot r hKept _ ih =>
      obtain ⟨snapshot, hHeld, hInvocation⟩ := ih
      obtain ⟨later, hLater, hInformed⟩ := history.informed_of_kept hHeld hKept
      exact ⟨later, hLater, hInformed.invocation r hInvocation⟩

theorem knows_of_invocation {n slot : Nat} {snapshot : Snapshot} {r : Invocation}
    (hHeld : history.held n slot = some snapshot) (hInvocation : snapshot.invocation = some r) :
    history.Knows n slot r := by
  -- Back along what became of the slot, to the deed in which the source was asked.
  induction n generalizing slot snapshot with
  | zero => cases hHeld
  | succ n ih =>
      have hFate := history.fate n slot
      rw [hHeld] at hFate
      cases hFate with
      | taken => cases hInvocation
      | copied hCopy _ hSource =>
          exact .copied ⟨hCopy, Option.isSome_of_eq_some hSource⟩ (ih hSource hInvocation)
      | @known command before other hDeed hAsks hBefore hKnown =>
          rw [command.invocation_informs other before] at hInvocation
          cases hInvocation
          exact .kept (history.not_renews_of_asks hDeed hAsks slot) (ih hBefore hKnown)
      | @fetched command before other hDeed hAsks _ _ _ hLog =>
          rw [command.invocation_informs other before] at hInvocation
          cases hInvocation
          exact .fetched ⟨hDeed, hAsks⟩ hLog
      | same hBefore hTaken hCopy =>
          exact .kept (history.not_renews_of_same hTaken hCopy) (ih hBefore hInvocation)

/-- What is known is what is kept in the snapshot. -/
theorem knows_iff {n slot : Nat} {snapshot : Snapshot} (hHeld : history.held n slot = some snapshot)
    (r : Invocation) : history.Knows n slot r ↔ snapshot.invocation = some r := by
  refine ⟨fun hKnows => ?_, knows_of_invocation hHeld⟩
  obtain ⟨other, hOther, hInvocation⟩ := hKnows.invocation
  exact Option.some.inj (hOther.symm.trans hHeld) ▸ hInvocation

theorem Knows.unique {n slot : Nat} {r r' : Invocation} (hKnows : history.Knows n slot r)
    (hOther : history.Knows n slot r') : r = r' := by
  obtain ⟨snapshot, hHeld, hInvocation⟩ := hKnows.invocation
  exact Option.some.inj (hInvocation.symm.trans ((knows_iff hHeld r').mp hOther))

theorem Knows.lasts {m n slot : Nat} {r : Invocation} (hKnows : history.Knows m slot r)
    (hLe : m ≤ n) (hKeeps : history.Keeps m n slot) : history.Knows n slot r := by
  induction n, hLe using Nat.le_induction with
  | base => exact hKnows
  | succ n hLe ih => exact .kept (hKeeps.last hLe) (ih (hKeeps.sooner (Nat.le_succ n)))

/-- What is not known does not become known unless it is asked for. -/
theorem Rests.ignorant {m n slot : Nat} (hRests : history.Rests m n slot)
    (hUnknown : ∀ r, ¬history.Knows m slot r) (hLe : m ≤ n) (r : Invocation) :
    ¬history.Knows n slot r := by
  induction n, hLe using Nat.le_induction with
  | base => exact hUnknown r
  | succ n hLe ih =>
      intro hKnows
      cases hKnows with
      | fetched hAsks => exact hRests.last hLe _ hAsks
      | @copied _ source _ _ hCopies => exact hRests.1.last hLe (.inr ⟨source, hCopies⟩)
      | kept _ hKnows => exact ih hRests.before hKnows

/-- A snapshot that is kept stays one of the same process. -/
theorem Keeps.pid {m n slot : Nat} {snapshot : Snapshot} (hKeeps : history.Keeps m n slot)
    (hHeld : history.held m slot = some snapshot) (hLe : m ≤ n) :
    ∃ later, history.held n slot = some later ∧ later.pid = snapshot.pid := by
  induction n, hLe using Nat.le_induction with
  | base => exact ⟨snapshot, hHeld, rfl⟩
  | succ n hLe ih =>
      obtain ⟨before, hBefore, hPid⟩ := ih (hKeeps.sooner (Nat.le_succ n))
      obtain ⟨later, hLater, hSame⟩ := history.informed_of_kept hBefore (hKeeps.last hLe)
      exact ⟨later, hLater, hSame.pid.trans hPid⟩

/-- What is known is told, and the source is not asked. -/
theorem Knows.told {m n slot : Nat} {r : Invocation} {command : Command}
    (hKnows : history.Knows m slot r) (hLe : m ≤ n) (hKeeps : history.Keeps m n slot)
    (hAsks : history.Asks n slot command) :
    history.reply n = .ok (.answer (command.tells r)) ∧ history.log n = [] := by
  obtain ⟨snapshot, hHeld, hInvocation⟩ := (hKnows.lasts hLe hKeeps).invocation
  have hStep := history.step n
  rw [hAsks.deed] at hStep
  rcases hStep.asks hAsks.asks hHeld with ⟨r', hKept, hReply, hLog⟩ | ⟨hNone, -⟩
  · cases hKept.symm.trans hInvocation
    exact ⟨hReply, hLog⟩
  · cases hNone.symm.trans hInvocation

/-- What is not known is read when it is asked for. -/
theorem Rests.read {m n slot : Nat} {snapshot : Snapshot} {command : Command}
    (hRests : history.Rests m n slot) (hHeld : history.held m slot = some snapshot)
    (hUnknown : ∀ r, ¬history.Knows m slot r) (hLe : m ≤ n)
    (hAsks : history.Asks n slot command) :
    ∃ outcome, history.log n = [.asked snapshot.pid outcome] ∧
      history.reply n = outcome.map fun r => .answer (command.tells r) := by
  obtain ⟨later, hLater, hPid⟩ := hRests.1.pid hHeld hLe
  have hStep := history.step n
  rw [hAsks.deed] at hStep
  rcases hStep.asks hAsks.asks hLater with ⟨r, hKept, -⟩ | ⟨-, hRead⟩
  · exact absurd (knows_of_invocation hLater hKept) (hRests.ignorant hUnknown hLe r)
  · exact hPid ▸ hRead

/-- What is told is known from then on. -/
theorem Keeps.knows {m n slot : Nat} {snapshot : Snapshot} {command : Command} {answer : Answer}
    (hKeeps : history.Keeps m n slot) (hHeld : history.held m slot = some snapshot) (hLe : m ≤ n)
    (hAsks : history.Asks n slot command) (hReply : history.reply n = .ok (.answer answer)) :
    ∃ r, history.Knows (n + 1) slot r ∧ answer = command.tells r := by
  obtain ⟨later, hLater, -⟩ := hKeeps.pid hHeld hLe
  have hStep := history.step n
  rw [hAsks.deed] at hStep
  rcases hStep.asks hAsks.asks hLater with
    ⟨r, hKept, hTold, -⟩ | ⟨-, outcome, hLog, hTold⟩
  · cases hTold.symm.trans hReply
    exact ⟨r, .kept (history.not_renews_of_asks hAsks.deed hAsks.asks slot)
      (knows_of_invocation hLater hKept), rfl⟩
  · cases outcome with
    | error abort => cases hTold.symm.trans hReply
    | ok r =>
        cases hTold.symm.trans hReply
        exact ⟨r, .fetched hAsks hLog, rfl⟩

/-- Whatever two commands tell of one snapshot is told from the same answer of the source. -/
theorem Keeps.same {m k l slot : Nat} {snapshot : Snapshot} {first later : Command}
    {answer answer' : Answer} (hKeeps : history.Keeps m l slot)
    (hHeld : history.held m slot = some snapshot) (hFrom : m ≤ k) (hLe : k ≤ l)
    (hFirst : history.Asks k slot first) (hReply : history.reply k = .ok (.answer answer))
    (hLater : history.Asks l slot later) (hReply' : history.reply l = .ok (.answer answer')) :
    ∃ r, answer = first.tells r ∧ answer' = later.tells r := by
  obtain ⟨r, hKnows, rfl⟩ := (hKeeps.sooner hLe).knows hHeld hFrom hFirst hReply
  obtain ⟨r', hKnows', rfl⟩ := hKeeps.knows hHeld (hFrom.trans hLe) hLater hReply'
  have hStays : history.Keeps (k + 1) (l + 1) slot := by
    intro j hStart hEnd
    rcases Nat.lt_succ_iff_lt_or_eq.mp hEnd with hBefore | rfl
    · exact hKeeps j (hFrom.trans (Nat.le_of_succ_le hStart)) hBefore
    · exact history.not_renews_of_asks hLater.deed hLater.asks slot
  exact ⟨r, rfl, (hKnows.lasts (Nat.succ_le_succ hLe) hStays).unique hKnows' ▸ rfl⟩

theorem not_knows_of_taken {n slot : Nat} {snapshot : Snapshot}
    (hTaken : history.taken n slot = some snapshot) (r : Invocation) :
    ¬history.Knows (n + 1) slot r := by
  obtain ⟨hHeld, -, -, look, release, -, rfl⟩ := (history.fate n slot).of_taken hTaken
  exact fun hKnows => nomatch (knows_iff hHeld r).mp hKnows

/-- Of equal snapshots the same is known. -/
theorem knows_congr {m n slot other : Nat}
    (hHeld : history.held n slot = history.held m other) (r : Invocation) :
    history.Knows n slot r ↔ history.Knows m other r := by
  constructor
  · intro hKnows
    obtain ⟨snapshot, hSlot, hInvocation⟩ := hKnows.invocation
    exact knows_of_invocation (hHeld.symm.trans hSlot) hInvocation
  · intro hKnows
    obtain ⟨snapshot, hOther, hInvocation⟩ := hKnows.invocation
    exact knows_of_invocation (hHeld.trans hOther) hInvocation

variable (history)

/-- What may be relied on when the arguments and the environment of snapshots are asked for,
whatever the source answers each time. -/
structure Consistent : Prop where
  /-- What is known of a snapshot is a single answer of the source. -/
  unique {n slot : Nat} {r r' : Invocation} :
    history.Knows n slot r → history.Knows n slot r' → r = r'
  /-- As long as the snapshot is the same one, everything is told from the answer that is known, and
  the source is not asked again. -/
  told {m n slot : Nat} {r : Invocation} {command : Command} : history.Knows m slot r → m ≤ n →
    history.Keeps m n slot → history.Asks n slot command →
    history.reply n = .ok (.answer (command.tells r)) ∧ history.log n = []
  /-- If nothing is known, the first that is asked for is told from what the source answers then. -/
  read {m n slot : Nat} {snapshot : Snapshot} {command : Command} :
    history.held m slot = some snapshot → (∀ r, ¬history.Knows m slot r) → m ≤ n →
    history.Rests m n slot → history.Asks n slot command →
    ∃ outcome, history.log n = [.asked snapshot.pid outcome] ∧
      history.reply n = outcome.map fun r => .answer (command.tells r)
  /-- So it answers once at most for as long as the snapshot is the same one. -/
  once {m n slot : Nat} {pid : Int32} {r : Invocation} {first later : Command} :
    history.Asks m slot first → history.log m = [.asked pid (.ok r)] → m < n →
    history.Keeps (m + 1) n slot → history.Asks n slot later →
    history.reply m = .ok (.answer (first.tells r)) ∧
      history.reply n = .ok (.answer (later.tells r)) ∧ history.log n = []
  /-- The command line of a snapshot is the arguments that it tells, with a single space between one
  and the next, whichever of the two is asked for first. -/
  joined {m n k l slot : Nat} {snapshot : Snapshot} {arguments : List String} {line : String} :
    history.held m slot = some snapshot → history.Keeps m n slot →
    m ≤ k → k ≤ n → history.Asks k slot (.arguments slot) →
    history.reply k = .ok (.answer (.arguments arguments)) →
    m ≤ l → l ≤ n → history.Asks l slot (.commandLine slot) →
    history.reply l = .ok (.answer (.commandLine line)) →
    line = " ".intercalate arguments
  /-- The source is not asked for anything else, nor for anything that is known. -/
  asked {n : Nat} {pid : Int32} {outcome : Except Abort Invocation} :
    .asked pid outcome ∈ history.log n →
    ∃ slot command snapshot, history.Asks n slot command ∧ history.held n slot = some snapshot ∧
      snapshot.pid = pid ∧ (∀ r, ¬history.Knows n slot r) ∧ history.log n = [.asked pid outcome] ∧
      history.reply n = outcome.map fun r => .answer (command.tells r)
  /-- After a look at the process it is asked again. -/
  renewed {m n slot : Nat} {snapshot : Snapshot} {command : Command} :
    history.taken m slot = some snapshot → m < n → history.Rests (m + 1) n slot →
    history.Asks n slot command →
    ∃ outcome, history.log n = [.asked snapshot.pid outcome] ∧
      history.reply n = outcome.map fun r => .answer (command.tells r)
  /-- Of a copy is known what was known of the snapshot that was copied. -/
  copied {n source target : Nat} : history.Copies n source target →
    history.held (n + 1) target = history.held n source ∧
      ∀ r, history.Knows (n + 1) target r ↔ history.Knows n source r
  /-- What is done with one snapshot does not change any other one, nor what is known of it. -/
  alone {n slot : Nat} {command : Command} : history.deed n = .command command →
    command.target ≠ slot → history.held (n + 1) slot = history.held n slot ∧
      ∀ r, history.Knows (n + 1) slot r ↔ history.Knows n slot r

theorem consistent : history.Consistent where
  unique := Knows.unique
  told := Knows.told
  read hHeld hUnknown hLe hRests hAsks := hRests.read hHeld hUnknown hLe hAsks
  once := by
    intro m n slot pid r first later hFirst hLog hLt hKeeps hLater
    have hKnows : history.Knows (m + 1) slot r := .fetched hFirst hLog
    refine ⟨?_, hKnows.told hLt hKeeps hLater⟩
    have hMem : .asked pid (.ok r) ∈ history.log m := hLog ▸ List.mem_cons_self
    obtain ⟨command, _, _, hDeed, -, -, -, -, -, hReply⟩ := (history.step m).asked hMem
    cases hDeed.symm.trans hFirst.deed
    exact hReply
  joined := by
    intro m n k l slot snapshot arguments line hHeld hKeeps hFrom hEnd hAsks hReply hFrom' hEnd'
      hAsks' hReply'
    rcases Nat.le_total k l with hLe | hLe
    · obtain ⟨r, hTold, hLine⟩ :=
        (hKeeps.sooner hEnd').same hHeld hFrom hLe hAsks hReply hAsks' hReply'
      cases hTold
      cases hLine
      rfl
    · obtain ⟨r, hLine, hTold⟩ :=
        (hKeeps.sooner hEnd).same hHeld hFrom' hLe hAsks' hReply' hAsks hReply
      cases hTold
      cases hLine
      rfl
  asked := by
    intro n pid outcome hAsked
    obtain ⟨command, slot, snapshot, hDeed, hAsks, hHeld, hPid, hNone, hLog, hReply⟩ :=
      (history.step n).asked hAsked
    refine ⟨slot, command, snapshot, ⟨hDeed, hAsks⟩, hHeld, hPid, fun r hKnows => ?_, hLog, hReply⟩
    cases hNone.symm.trans ((knows_iff hHeld r).mp hKnows)
  renewed hTaken hLt hRests hAsks :=
    hRests.read (history.held_of_taken hTaken) (not_knows_of_taken hTaken) hLt hAsks
  copied hCopies := ⟨hCopies.held_target, knows_congr hCopies.held_target⟩
  alone hDeed hOther :=
    have hHeld := (hDeed ▸ history.step _ : Step _ _ (.command _) _ _ _).alone hOther
    ⟨hHeld, knows_congr hHeld⟩

/-- A process that has other arguments each time it is asked for them. -/
def retitled : Source (List (List String)) where
  platform := .unserved
  list := return []
  currentPid := return 7
  attributes _ _ := return some { Attributes.unknown with state := .running, threads := 1 }
  batch := Source.readEach fun _ _ => return none
  invocation _ := Run.call fun titles => (⟨titles.headD [], .empty⟩, titles.tail)

/-- The arguments are asked for, and then the joined ones; a copy keeps them beyond a refresh. -/
def retitledHistory : History (List (List String)) where
  census := {
    source := retitled
    release := .unknown
    settings := { retention := none, workers := none }
    available := ⟨1, Nat.one_pos⟩ }
  start := { kernel := [["a", "b"], ["c"]], clock := 0, journal := [] }
  deed
    | 0 => .command (.probe 7 0)
    | 1 => .command (.arguments 0)
    | 2 => .command (.commandLine 0)
    | 3 => .command (.copy 0 1)
    | 4 => .command (.refresh 0)
    | 5 => .command (.commandLine 0)
    | _ => .command (.commandLine 1)

theorem consistent_retitled :
    retitledHistory.Consistent ∧
      retitledHistory.log 1 = [.asked 7 (.ok ⟨["a", "b"], .empty⟩)] ∧
      retitledHistory.reply 1 = .ok (.answer (.arguments ["a", "b"])) ∧
      retitledHistory.reply 2 = .ok (.answer (.commandLine "a b")) ∧
      retitledHistory.log 2 = [] ∧
      retitledHistory.reply 5 = .ok (.answer (.commandLine "c")) ∧
      retitledHistory.reply 6 = .ok (.answer (.commandLine "a b")) := by
  have hConsistent := consistent retitledHistory
  have hLog : retitledHistory.log 1 = [.asked 7 (.ok ⟨["a", "b"], .empty⟩)] := by rfl
  have hFirst : retitledHistory.Asks 1 0 (.arguments 0) := ⟨rfl, rfl⟩
  have hLine : retitledHistory.Asks 2 0 (.commandLine 0) := ⟨rfl, rfl⟩
  obtain ⟨hTold, hJoined, hQuiet⟩ := hConsistent.once hFirst hLog (Nat.lt_succ_self 1)
    (fun k hFrom hUntil => absurd hUntil (Nat.not_lt_of_le hFrom)) hLine
  refine ⟨hConsistent, hLog, hTold, hJoined, hQuiet, by rfl, by rfl⟩

end History

end ProcessCensus.Session
