import ProcessCensus.Proofs.Session.Deed

/-!
What one deed can come to. Everything that holds of all histories goes back to these cases.
-/

namespace ProcessCensus

variable {κ : Type}

namespace Session

namespace Command

/-- The slot about whose process a command asks for something that is read only then. -/
def asks : Command → Option Nat
  | .arguments slot => some slot
  | .environment slot => some slot
  | .commandLine slot => some slot
  | _ => none

/-- What a command tells of arguments and environment. A command line is the arguments with a single
space between one and the next. -/
def tells (command : Command) (invocation : Invocation) : Answer :=
  match command with
  | .arguments _ => .arguments invocation.arguments
  | .environment _ => .environment invocation.environment
  | .commandLine _ => .commandLine (" ".intercalate invocation.arguments)
  | _ => .done

/-- The snapshot after a command has told something of these arguments and this environment. -/
def informs (command : Command) (invocation : Invocation) (snapshot : Snapshot) : Snapshot :=
  match command with
  | .commandLine _ =>
    { snapshot with
      invocation := some invocation
      commandLine := some (" ".intercalate invocation.arguments) }
  | _ => { snapshot with invocation := some invocation }

end Command

end Session

/-- A command line that is kept is that of the arguments that are kept. -/
def Snapshot.Coherent (snapshot : Snapshot) : Prop :=
  ∀ line, snapshot.commandLine = some line →
    ∃ r, snapshot.invocation = some r ∧ line = " ".intercalate r.arguments

/-- It stays so when it is told of the arguments that are kept, or of any if none are kept. -/
theorem Snapshot.Coherent.informs {snapshot : Snapshot} (hCoherent : snapshot.Coherent)
    {invocation : Invocation} (hSame : ∀ r, snapshot.invocation = some r → r = invocation)
    (command : Session.Command) : (command.informs invocation snapshot).Coherent := by
  have hKept : ({ snapshot with invocation := some invocation } : Snapshot).Coherent := by
    intro line hLine
    obtain ⟨r, hInvocation, rfl⟩ := hCoherent line hLine
    exact ⟨invocation, rfl, by rw [hSame r hInvocation]⟩
  cases command with
  | commandLine => exact fun line hLine => ⟨invocation, rfl, (Option.some.inj hLine).symm⟩
  | get | current | probe | refresh | arguments | environment | copy => exact hKept

/-- The later snapshot is of the same process, and the arguments and the environment that are kept in
the earlier one are kept in it. -/
structure Snapshot.Informed (snapshot later : Snapshot) : Prop where
  pid : later.pid = snapshot.pid
  invocation : ∀ r, snapshot.invocation = some r → later.invocation = some r

/-- Arguments and environment as they are kept, or as they are read now. -/
def Snapshot.invoke (source : Source κ) (snapshot : Snapshot) : Run κ Invocation :=
  match snapshot.invocation with
  | some invocation => pure invocation
  | none => source.invocation snapshot.pid

theorem Snapshot.readInvocation_eq (source : Source κ) (snapshot : Snapshot) :
    snapshot.readInvocation source =
      (fun r => (r, { snapshot with invocation := some r })) <$> snapshot.invoke source := by
  obtain ⟨pid, release, attributes, invocation, line⟩ := snapshot
  rw [readInvocation, invoke]
  cases invocation with
  | some r => rfl
  | none => exact (map_eq_pure_bind _ _).symm

/-- The joined arguments are those of the arguments that are kept or read, also if they are kept
themselves. -/
theorem Snapshot.readCommandLine_eq (source : Source κ) {snapshot : Snapshot}
    (hCoherent : snapshot.Coherent) :
    snapshot.readCommandLine source =
      (fun r => (" ".intercalate r.arguments, { snapshot with
        invocation := some r, commandLine := some (" ".intercalate r.arguments) })) <$>
          snapshot.invoke source := by
  obtain ⟨pid, release, attributes, invocation, line⟩ := snapshot
  rw [readCommandLine]
  cases line with
  | none =>
      dsimp only
      rw [readInvocation_eq, bind_map_left, map_eq_pure_bind]
      rfl
  | some line =>
      obtain ⟨r, rfl, rfl⟩ := hCoherent line rfl
      rfl

namespace Session

theorem Command.pid_informs (command : Command) (invocation : Invocation)
    (snapshot : Snapshot) : (command.informs invocation snapshot).pid = snapshot.pid := by
  cases command <;> rfl

theorem Command.invocation_informs (command : Command) (invocation : Invocation)
    (snapshot : Snapshot) : (command.informs invocation snapshot).invocation = some invocation := by
  cases command <;> rfl

theorem Command.informed_informs {invocation : Invocation} {snapshot : Snapshot}
    (hSame : ∀ r, snapshot.invocation = some r → r = invocation) (command : Command) :
    snapshot.Informed (command.informs invocation snapshot) where
  pid := command.pid_informs invocation snapshot
  invocation r hKept := hSame r hKept ▸ command.invocation_informs invocation snapshot

theorem Command.onSlot_eq (source : Source κ) {snapshot : Snapshot} (hCoherent : snapshot.Coherent)
    {command : Command} {slot : Nat} (hAsks : command.asks = some slot) :
    command.onSlot source snapshot =
      (fun r => (command.tells r, command.informs r snapshot)) <$> snapshot.invoke source := by
  cases command with
  | arguments | environment =>
      rw [onSlot, snapshot.readInvocation_eq, bind_map_left, map_eq_pure_bind]
      rfl
  | commandLine =>
      rw [onSlot, snapshot.readCommandLine_eq source hCoherent, bind_map_left, map_eq_pure_bind]
      rfl
  | get | current | probe | refresh | copy => cases hAsks

/-- Whether a command looks at a process. -/
def Command.looks : Command → Bool
  | .get .. | .current _ | .probe .. | .refresh _ => true
  | .arguments _ | .environment _ | .commandLine _ | .copy .. => false

/-- A command looks at a process as if for the first time, at the given one if it names one. -/
def Command.sees (command : Command) (pid : Int32) : Prop :=
  match command with
  | .get named _ => named = pid
  | .probe named _ => named = pid
  | .current _ => True
  | _ => False

/-- What a deed can come to: the reply, what is written down, and what is in the slots after it. What
was in the slots before is `held`. -/
inductive Step (release : Release) (held : Nat → Option Snapshot) :
    Deed κ → Except Abort Reply → Log → (Nat → Option Snapshot) → Prop
  | meanwhile {change : κ → κ} {clock : Int} :
      Step release held (.meanwhile change clock) (.ok (.answer .done)) [] held
  /-- There is no snapshot in the slot that the command needs. -/
  | idle {command : Command} {slot : Nat} (hNeeds : command.needs = some slot)
      (hHeld : held slot = none) :
      Step release held (.command command) (.ok (.answer .done)) [] held
  /-- The source breaks off at a look. -/
  | broken {command : Command} {abort : Abort} (hLooks : command.looks = true) :
      Step release held (.command command) (.error abort) [] held
  /-- The source breaks off in a listing. -/
  | unlisted {listing : Listing} {first : Nat} {abort : Abort} {looks : List Look} :
      Step release held (.list listing first) (.error abort) (looks.map .looked) held
  /-- The source breaks off when it is asked for arguments and environment. -/
  | refused {command : Command} {slot : Nat} {snapshot : Snapshot} {abort : Abort}
      (hAsks : command.asks = some slot) (hHeld : held slot = some snapshot)
      (hUnknown : snapshot.invocation = none) :
      Step release held (.command command) (.error abort) [.asked snapshot.pid (.error abort)] held
  | seen {command : Command} {look : Look} (hSees : command.sees look.pid)
      (hValid : (∀ pid slot, command ≠ .probe pid slot) → (look.snapshot release).isValid = true) :
      Step release held (.command command) (.ok (.answer (.seen (some (look.snapshot release)))))
        [.looked look] (Function.update held command.target (some (look.snapshot release)))
  | unseen {command : Command} {look : Look} (hSees : command.sees look.pid)
      (hInvalid : (look.snapshot release).isValid = false) :
      Step release held (.command command) (.ok (.answer (.seen none))) [.looked look] held
  | refreshed {slot : Nat} {snapshot : Snapshot} {look : Look} (hHeld : held slot = some snapshot)
      (hPid : look.pid = snapshot.pid) :
      Step release held (.command (.refresh slot))
        (.ok (.answer (.refreshed (look.snapshot snapshot.release).isValid
          (look.snapshot snapshot.release))))
        [.looked look] (Function.update held slot (some (look.snapshot snapshot.release)))
  | copied {source target : Nat} {snapshot : Snapshot} (hHeld : held source = some snapshot) :
      Step release held (.command (.copy source target)) (.ok (.answer .done)) []
        (Function.update held target (some snapshot))
  /-- Arguments and environment are kept already. -/
  | known {command : Command} {slot : Nat} {snapshot : Snapshot} {invocation : Invocation}
      (hAsks : command.asks = some slot) (hHeld : held slot = some snapshot)
      (hKnown : snapshot.invocation = some invocation) :
      Step release held (.command command) (.ok (.answer (command.tells invocation))) []
        (Function.update held slot (some (command.informs invocation snapshot)))
  /-- Arguments and environment are read now. -/
  | fetched {command : Command} {slot : Nat} {snapshot : Snapshot} {invocation : Invocation}
      (hAsks : command.asks = some slot) (hHeld : held slot = some snapshot)
      (hUnknown : snapshot.invocation = none) :
      Step release held (.command command) (.ok (.answer (command.tells invocation)))
        [.asked snapshot.pid (.ok invocation)]
        (Function.update held slot (some (command.informs invocation snapshot)))
  | listed {listing : Listing} {first : Nat} {snapshots : List Snapshot} {looks : List Look}
      (hSeen : ∀ s ∈ snapshots, s.SeenIn release (looks.map .looked)) :
      Step release held (.list listing first) (.ok (.listed snapshots)) (looks.map .looked)
        (spread held first snapshots)

/-- What a deed comes to under observation is one of the steps. -/
def Steps (session : Session κ) (deed : Deed κ) (result : Except Abort Reply × Session (κ × Log)) :
    Prop :=
  Step session.census.release session.slot? deed result.1 result.2.host.log result.2.slot?

section Command

variable {session : Session κ} {command : Command} {answer : Answer} {snapshot : Snapshot}
  {abort : Abort} {after : Host κ}

theorem act_kept
    (hRun : (command.run session.census (command.needs.bind session.slot?)).on session.host =
      (.ok (answer, some snapshot), after)) :
    session.act (.command command) =
      (.ok (.answer answer),
        ({ session with host := after } : Session κ).keep command.target snapshot) := by
  rw [act, Session.command, run, hRun]
  rfl

theorem act_told
    (hRun : (command.run session.census (command.needs.bind session.slot?)).on session.host =
      (.ok (answer, none), after)) :
    session.act (.command command) = (.ok (.answer answer), { session with host := after }) := by
  rw [act, Session.command, run, hRun]
  rfl

theorem act_aborted
    (hRun : (command.run session.census (command.needs.bind session.slot?)).on session.host =
      (.error abort, after)) :
    session.act (.command command) = (.error abort, { session with host := after }) := by
  rw [act, Session.command, run, hRun]
  rfl

/-- A command on a snapshot that is held runs on it. -/
theorem run_eq_onSlot {slot : Nat} (hNeeds : command.needs = some slot)
    (hHeld : session.slot? slot = some snapshot) :
    command.run session.census (command.needs.bind session.slot?) =
      (fun (answer, next) => (answer, some next)) <$>
        command.onSlot session.census.source snapshot := by
  rw [hNeeds, Option.bind_some, hHeld, map_eq_pure_bind]
  cases command with
  | get | current | probe => cases hNeeds
  | refresh | arguments | environment | commandLine | copy => rfl

end Command

/-- What a look for the first time can come to. -/
inductive Sighting (release : Release) (command : Command) (log : Log) :
    Except Abort (Option Snapshot) × Host (κ × Log) → Prop
  | broken {abort : Abort} {after : Host (κ × Log)} (hAfter : after.log = log) :
      Sighting release command log (.error abort, after)
  | seen {look : Look} {after : Host (κ × Log)} (hAfter : after.log = log ++ [.looked look])
      (hSees : command.sees look.pid)
      (hValid : (∀ pid slot, command ≠ .probe pid slot) → (look.snapshot release).isValid = true) :
      Sighting release command log (.ok (some (look.snapshot release)), after)
  | unseen {look : Look} {after : Host (κ × Log)} (hAfter : after.log = log ++ [.looked look])
      (hSees : command.sees look.pid) (hInvalid : (look.snapshot release).isValid = false) :
      Sighting release command log (.ok none, after)

/-- A look under observation is written down if it is answered. -/
theorem probe_on {source : Source κ} {pid : Int32} {release : Release} {host : Host (κ × Log)}
    {outcome : Except Abort (Option Attributes)} {after : Host κ}
    (hLook : (source.attributes pid release).on host.unwatched = (outcome, after)) :
    (Snapshot.probe source.watched pid release).on host =
      (outcome.map fun answer => Look.snapshot ⟨pid, answer, after.clock⟩ release,
        after.watched (host.log ++ Source.looked pid outcome after.clock)) := by
  have hWatched : (source.watched.attributes pid release).on host = _ := Run.on_watched hLook
  rw [Snapshot.probe, Run.on_bind, hWatched]
  cases outcome <;> rfl

section Sighting

variable {census : Census κ} {command : Command}

theorem get_sighting {pid : Int32} (hSees : command.sees pid) (host : Host (κ × Log)) :
    Sighting census.release command host.log ((census.watched.get pid).on host) := by
  rcases hLook : (census.source.attributes pid census.release).on host.unwatched with ⟨outcome, after⟩
  have hProbe : (Snapshot.probe census.watched.source pid census.watched.release).on host = _ :=
    probe_on hLook
  rw [Census.get, Run.on_bind, hProbe]
  cases outcome with
  | error abort => exact .broken (List.append_nil _)
  | ok answer =>
      dsimp only [Except.map]
      split
      case isTrue hValid => exact .seen rfl hSees fun _ => hValid
      case isFalse hInvalid => exact .unseen rfl hSees (Bool.not_eq_true _ ▸ hInvalid)

theorem current_sighting (slot : Nat) (host : Host (κ × Log)) :
    Sighting census.release (.current slot) host.log (census.watched.currentProcess.on host) := by
  rcases hPid : census.source.currentPid.on host.unwatched with ⟨outcome, after⟩
  have hWatched : census.watched.source.currentPid.on host = (outcome, after.watched host.log) := by
    rw [← List.append_nil host.log]
    exact @Run.on_watched _ _ (fun _ _ => []) _ _ _ _ hPid
  rw [Census.currentProcess, Run.on_bind, hWatched]
  cases outcome with
  | error abort => exact .broken rfl
  | ok pid =>
      have hSees : (Command.current slot).sees pid := trivial
      exact get_sighting hSees (after.watched host.log)

theorem probe_sighting (pid : Int32) (slot : Nat) (host : Host (κ × Log)) :
    Sighting census.release (.probe pid slot) host.log
      ((some <$> Snapshot.probe census.watched.source pid census.release).on host) := by
  rcases hLook : (census.source.attributes pid census.release).on host.unwatched with ⟨outcome, after⟩
  have hProbe : (Snapshot.probe census.watched.source pid census.release).on host = _ :=
    probe_on hLook
  rw [Run.on_map, hProbe]
  cases outcome with
  | error abort => exact .broken (List.append_nil _)
  | ok answer =>
      have hSees : (Command.probe pid slot).sees (Look.mk pid answer after.clock).pid := rfl
      exact .seen rfl hSees fun hOther => absurd rfl (hOther pid slot)

end Sighting

section Step

variable {session : Session κ} {command : Command} {slot : Nat} {snapshot : Snapshot}

/-- A command that looks for the first time keeps what it has seen. -/
theorem steps_of_sighting (hLooks : command.looks = true) {run : Run (κ × Log) (Option Snapshot)}
    (hRun : command.run session.watched.census (command.needs.bind session.watched.slot?) =
      (fun seen => (.seen seen, seen)) <$> run)
    (hSighting : Sighting session.census.release command [] (run.on session.watched.host)) :
    session.Steps (.command command) (session.watched.act (.command command)) := by
  have hOn := congrArg (fun run => Run.on run session.watched.host) hRun
  simp only [Run.on_map] at hOn
  generalize run.on session.watched.host = reached at hSighting hOn
  rw [Steps]
  cases hSighting with
  | broken hAfter =>
      rw [act_aborted hOn]
      exact hAfter ▸ Step.broken hLooks
  | seen hAfter hSees hValid =>
      rw [act_kept hOn, slot?_keep]
      exact hAfter ▸ Step.seen hSees hValid
  | unseen hAfter hSees hInvalid =>
      rw [act_told hOn]
      exact hAfter ▸ Step.unseen hSees hInvalid

theorem idle_steps (hNeeds : command.needs = some slot) (hHeld : session.slot? slot = none) :
    session.Steps (.command command) (session.watched.act (.command command)) := by
  have hWatched : session.watched.slot? slot = none := hHeld
  have hOn : (command.run session.watched.census (command.needs.bind session.watched.slot?)).on
      session.watched.host = (.ok (.done, none), session.watched.host) := by
    rw [hNeeds, Option.bind_some, hWatched]
    cases command with
    | get | current | probe => cases hNeeds
    | refresh | arguments | environment | commandLine | copy => rfl
  rw [Steps, act_told hOn]
  exact Step.idle hNeeds hHeld

theorem Command.needs_of_asks (hAsks : command.asks = some slot) :
    command.needs = some slot ∧ command.target = slot := by
  cases command with
  | arguments | environment | commandLine => exact ⟨hAsks, Option.some.inj hAsks⟩
  | get | current | probe | refresh | copy => cases hAsks

/-- A command that asks for arguments or environment reads them unless they are kept. -/
theorem asks_steps (hAsks : command.asks = some slot) (hHeld : session.slot? slot = some snapshot)
    (hCoherent : snapshot.Coherent) :
    session.Steps (.command command) (session.watched.act (.command command)) := by
  obtain ⟨hNeeds, hTarget⟩ := Command.needs_of_asks hAsks
  have hRun := @run_eq_onSlot _ session.watched _ _ _ hNeeds hHeld
  rw [command.onSlot_eq _ hCoherent hAsks, Snapshot.invoke] at hRun
  have hOn := congrArg (fun run => Run.on run session.watched.host) hRun
  simp only [Run.on_map] at hOn
  rw [Steps]
  cases hKnown : snapshot.invocation with
  | some invocation =>
      rw [hKnown] at hOn
      rw [act_kept hOn, slot?_keep, hTarget]
      exact Step.known hAsks hHeld hKnown
  | none =>
      rcases hAnswer : (session.census.source.invocation snapshot.pid).on session.host with
        ⟨outcome, after⟩
      have hWatched : (session.watched.census.source.invocation snapshot.pid).on
          session.watched.host = (outcome, after.watched [.asked snapshot.pid outcome]) :=
        @Run.on_watched _ _ (fun outcome _ => [.asked snapshot.pid outcome]) _
          (session.host.watched []) _ _ hAnswer
      rw [hKnown] at hOn
      simp only [hWatched] at hOn
      cases outcome with
      | error abort =>
          rw [act_aborted hOn]
          exact Step.refused hAsks hHeld hKnown
      | ok invocation =>
          rw [act_kept hOn, slot?_keep, hTarget]
          exact Step.fetched hAsks hHeld hKnown

theorem refresh_steps (hHeld : session.slot? slot = some snapshot) :
    session.Steps (.command (.refresh slot)) (session.watched.act (.command (.refresh slot))) := by
  rcases hLook : (session.census.source.attributes snapshot.pid snapshot.release).on session.host
    with ⟨outcome, after⟩
  have hProbe : (snapshot.refresh session.watched.census.source).on session.watched.host = _ :=
    @probe_on _ _ _ _ (session.host.watched []) _ _ hLook
  have hRun := @run_eq_onSlot _ session.watched (.refresh slot) _ _ rfl hHeld
  have hOn := congrArg (fun run => Run.on run session.watched.host) hRun
  simp only [Run.on_map, Command.onSlot, Run.on_bind, hProbe] at hOn
  rw [Steps]
  cases outcome with
  | error abort =>
      rw [act_aborted hOn]
      exact Step.broken rfl
  | ok answer =>
      rw [act_kept hOn, slot?_keep]
      have hPid : (Look.mk snapshot.pid answer after.clock).pid = snapshot.pid := rfl
      exact Step.refreshed hHeld hPid

theorem copy_steps {source target : Nat} (hHeld : session.slot? source = some snapshot) :
    session.Steps (.command (.copy source target))
      (session.watched.act (.command (.copy source target))) := by
  have hRun := @run_eq_onSlot _ session.watched (.copy source target) _ _ rfl hHeld
  have hOn := congrArg (fun run => Run.on run session.watched.host) hRun
  rw [Steps, act_kept hOn, slot?_keep]
  exact Step.copied hHeld

/-- Every deed is one of the steps. -/
theorem act_steps (session : Session κ) (hCoherent : ∀ slot snapshot,
    session.slot? slot = some snapshot → snapshot.Coherent) (deed : Deed κ) :
    session.Steps deed (session.watched.act deed.watched) := by
  cases deed with
  | meanwhile change clock => exact Step.meanwhile
  | list listing first =>
      -- Which looks a listing takes depends on the source; all that matters is that it only looks.
      obtain ⟨⟨looks, hLog⟩, hSeen⟩ := listing.run_looks session.census session.watched.host
      rw [Steps, Deed.watched, act, run]
      rcases hRun : (listing.run session.watched.census).on session.watched.host with ⟨outcome, after⟩
      change (listing.run session.census.watched).on session.watched.host = _ at hRun
      rw [hRun] at hLog hSeen
      have hAfter : after.log = looks.map .looked := hLog
      cases outcome with
      | error abort => exact hAfter ▸ Step.unlisted
      | ok snapshots =>
          have hSnapshots := hSeen snapshots rfl
          dsimp only
          rw [slot?_keepAll, host_keepAll]
          dsimp only
          rw [hAfter] at hSnapshots ⊢
          exact Step.listed hSnapshots
  | command command =>
      cases command with
      | get pid slot =>
          have hSees : (Command.get pid slot).sees pid := rfl
          exact steps_of_sighting rfl (map_eq_pure_bind _ _).symm
            (get_sighting hSees session.watched.host)
      | current slot =>
          exact steps_of_sighting rfl (map_eq_pure_bind _ _).symm
            (current_sighting slot session.watched.host)
      | probe pid slot =>
          refine steps_of_sighting rfl ?_ (probe_sighting pid slot session.watched.host)
          rw [Functor.map_map]
          exact (map_eq_pure_bind _ _).symm
      | refresh slot =>
          cases hHeld : session.slot? slot with
          | none => exact idle_steps rfl hHeld
          | some snapshot => exact refresh_steps hHeld
      | copy source target =>
          cases hHeld : session.slot? source with
          | none => exact idle_steps rfl hHeld
          | some snapshot => exact copy_steps hHeld
      | arguments slot | environment slot | commandLine slot =>
          cases hHeld : session.slot? slot with
          | none => exact idle_steps rfl hHeld
          | some snapshot => exact asks_steps rfl hHeld (hCoherent slot snapshot hHeld)

end Step

end Session

end ProcessCensus
