import ProcessCensus.Memo.Basic
import ProcessCensus.Run
import Mathlib.Control.Lawful

/-!
How computations that ask a system compose. `Run.Yields` says that a computation has one outcome as
long as the system stays within a class of hosts; it composes as the outcomes do. Where each part
leads to another host, the lemmas `on_bind_of_eq` go from one to the next.
-/

namespace ProcessCensus.Run

variable {κ α β : Type}

@[simp] theorem on_pure (value : α) (host : Host κ) :
    (pure value : Run κ α).on host = (.ok value, host) := rfl

/-- A computation goes on from the host that the first part leaves, unless that part breaks off. -/
theorem on_bind (run : Run κ α) (next : α → Run κ β) (host : Host κ) :
    (run >>= next).on host =
      match run.on host with
      | (.ok value, after) => (next value).on after
      | (.error abort, after) => (.error abort, after) := by
  change (ExceptT.bindCont next (run host).1) (run host).2 = _
  change _ = match run host with
    | (.ok value, after) => (next value).on after
    | (.error abort, after) => (.error abort, after)
  rcases run host with ⟨outcome, after⟩
  cases outcome <;> rfl

@[simp] theorem on_settle (run : Run κ α) (host : Host κ) :
    run.settle.on host = (.ok (run.on host).1, (run.on host).2) := rfl

@[simp] theorem on_now (host : Host κ) :
    (now : Run κ UInt64).on host = (.ok (UInt64.ofNat host.clock.toNat), host) := rfl

@[simp] theorem on_kernel (host : Host κ) : (kernel : Run κ κ).on host = (.ok host.kernel, host) := rfl

@[simp] theorem on_note (notice : Notice) (host : Host κ) :
    (note notice).on host = (.ok (), { host with journal := notice :: host.journal }) := rfl

@[simp] theorem on_call (question : κ → α × κ) (host : Host κ) :
    (call question).on host =
      (.ok (question host.kernel).1, { host with kernel := (question host.kernel).2 }) := rfl

theorem on_ensuring (run : Run κ α) (change : κ → κ) (host : Host κ) :
    (run.ensuring change).on host =
      ((run.on host).1, { (run.on host).2 with kernel := change (run.on host).2.kernel }) := rfl

theorem read_bind (first : Except Record.Fault α) (next : α → Except Record.Fault β) :
    (read (first >>= next) : Run κ β) = read first >>= fun value => read (next value) := by
  cases first <;> rfl

theorem on_map (f : α → β) (run : Run κ α) (host : Host κ) :
    (f <$> run).on host = (f <$> (run.on host).1, (run.on host).2) := by
  rw [map_eq_pure_bind, on_bind]
  rcases run.on host with ⟨outcome, after⟩
  cases outcome <;> rfl

/-- Goes on from a part whose end is known. -/
theorem on_bind_of_eq {run : Run κ α} {host after : Host κ} {value : α}
    (hRun : run.on host = (.ok value, after)) (next : α → Run κ β) :
    (run >>= next).on host = (next value).on after := by
  rw [on_bind, hRun]

/-- A result of the whole goes through a result of the first part. -/
theorem of_on_bind {run : Run κ α} {next : α → Run κ β} {host : Host κ} {value : β}
    (hOn : ((run >>= next).on host).1 = .ok value) :
    ∃ middle after, run.on host = (.ok middle, after) ∧ ((next middle).on after).1 = .ok value := by
  rw [on_bind] at hOn
  rcases hRun : run.on host with ⟨_ | middle, after⟩
  all_goals rw [hRun] at hOn
  · cases hOn
  · exact ⟨middle, after, rfl, hOn⟩

/-- A result that was made from an outcome was made from a result. -/
theorem exists_ok_of_map {f : α → β} {outcome : Except Abort α} {value : β}
    (hMap : f <$> outcome = .ok value) : ∃ middle, outcome = .ok middle ∧ f middle = value := by
  cases outcome with
  | error abort => cases hMap
  | ok middle => exact ⟨middle, rfl, Except.ok.inj hMap⟩

/-- What is known of a possible result is known of the result. -/
theorem exists_some_of_map {f : α → β} {outcome : Except Abort (Option α)} {value : β}
    (hMap : Option.map f <$> outcome = .ok (some value)) :
    ∃ told, outcome = .ok (some told) ∧ f told = value := by
  obtain ⟨answer, rfl, hAnswer⟩ := exists_ok_of_map hMap
  obtain ⟨told, rfl, hTold⟩ := Option.map_eq_some_iff.mp hAnswer
  exact ⟨told, rfl, hTold⟩

/-- From every steady host the computation has this outcome, and it leaves the host steady. -/
def Yields (steady : Host κ → Prop) (run : Run κ α) (outcome : Except Abort α) : Prop :=
  ∀ host, steady host → (run.on host).1 = outcome ∧ steady (run.on host).2

variable {steady : Host κ → Prop}

theorem Yields.pure (value : α) : Yields steady (pure value) (.ok value) :=
  fun _ hHost => ⟨rfl, hHost⟩

theorem Yields.bind {run : Run κ α} {next : α → Run κ β} {first : Except Abort α}
    {second : α → Except Abort β} (hRun : Yields steady run first)
    (hNext : ∀ value, Yields steady (next value) (second value)) :
    Yields steady (run >>= next) (first >>= second) := by
  intro host hHost
  obtain ⟨hFirst, hAfter⟩ := hRun host hHost
  rw [on_bind]
  rcases hOn : run.on host with ⟨outcome, after⟩
  rw [hOn] at hFirst hAfter
  subst hFirst
  cases outcome with
  | ok value => exact hNext value after hAfter
  | error abort => exact ⟨rfl, hAfter⟩

/-- Goes on from a part whose result is known. -/
theorem Yields.bind_ok {run : Run κ α} {next : α → Run κ β} {value : α} {outcome : Except Abort β}
    (hRun : Yields steady run (.ok value)) (hNext : Yields steady (next value) outcome) :
    Yields steady (run >>= next) outcome := by
  intro host hHost
  obtain ⟨hValue, hAfter⟩ := hRun host hHost
  rw [on_bind_of_eq (Prod.ext hValue rfl)]
  exact hNext _ hAfter

theorem Yields.map {run : Run κ α} {outcome : Except Abort α} (f : α → β)
    (hRun : Yields steady run outcome) : Yields steady (f <$> run) (f <$> outcome) := by
  rw [map_eq_pure_bind, map_eq_pure_bind]
  exact hRun.bind fun value => Yields.pure (f value)

theorem Yields.mapM {f : α → Run κ β} {g : α → Except Abort β}
    (hEach : ∀ x, Yields steady (f x) (g x)) (xs : List α) :
    Yields steady (xs.mapM f) (xs.mapM g) := by
  induction xs with
  | nil => exact Yields.pure []
  | cons x xs ih =>
      rw [List.mapM_cons, List.mapM_cons]
      exact (hEach x).bind fun y => ih.bind fun ys => Yields.pure (y :: ys)

theorem Yields.mapM_ok {f : α → Run κ β} {g : α → β}
    (hEach : ∀ x, Yields steady (f x) (.ok (g x))) (xs : List α) :
    Yields steady (xs.mapM f) (.ok (xs.map g)) := by
  have hRun : Yields steady (xs.mapM f) (xs.mapM fun x => (Pure.pure (g x) : Except Abort β)) :=
    Yields.mapM hEach xs
  rwa [List.mapM_pure] at hRun

/-- What a settled computation has to tell is an outcome, so it does not break off. -/
theorem Yields.settle {run : Run κ α} {outcome : Except Abort α}
    (hRun : Yields steady run outcome) : Yields steady run.settle (.ok outcome) := by
  intro host hHost
  rw [on_settle]
  exact ⟨congrArg Except.ok (hRun host hHost).1, (hRun host hHost).2⟩

theorem Yields.mapM_settle {f : α → Run κ β} {g : α → Except Abort β}
    (hEach : ∀ x, Yields steady (f x) (g x)) (xs : List α) :
    Yields steady (xs.mapM fun x => (f x).settle) (.ok (xs.map g)) :=
  Yields.mapM_ok (fun x => (hEach x).settle) xs

theorem Yields.known (outcome : Except Abort α) :
    Yields steady (ExceptT.mk (Pure.pure outcome)) outcome :=
  fun _ hHost => ⟨rfl, hHost⟩

/-- A kernel that is looked at need not be the same in all steady hosts, as long as what follows does
not depend on the difference. -/
theorem Yields.kernel_bind {next : κ → Run κ β} {known : κ} {outcome : Except Abort β}
    (hNext : Yields steady (next known) outcome)
    (hSame : ∀ host, steady host → next host.kernel = next known) :
    Yields steady (kernel >>= next) outcome := by
  intro host hHost
  rw [on_bind_of_eq (on_kernel host), hSame host hHost]
  exact hNext host hHost

theorem Yields.ensuring {run : Run κ α} {outcome : Except Abort α} {change : κ → κ}
    (hRun : Yields steady run outcome)
    (hChange : ∀ host, steady host → steady { host with kernel := change host.kernel }) :
    Yields steady (run.ensuring change) outcome :=
  fun host hHost => ⟨(hRun host hHost).1, hChange _ (hRun host hHost).2⟩

/-- From every steady host the computation has one and the same result, and it leaves the host
steady. In particular it never breaks off. -/
def Certain (steady : Host κ → Prop) (run : Run κ α) : Prop :=
  ∃ value, Yields steady run (.ok value)

theorem Certain.kernel_bind {next : κ → Run κ β} {known : κ}
    (hSame : ∀ host, steady host → next host.kernel = next known)
    (hNext : Certain steady (next known)) : Certain steady (kernel >>= next) := by
  obtain ⟨value, hValue⟩ := hNext
  exact ⟨value, hValue.kernel_bind hSame⟩

/-- The one result is the one from any steady host. -/
theorem Certain.yields {run : Run κ α} (hRun : Certain steady run) {host : Host κ}
    (hHost : steady host) : Yields steady run (run.on host).1 := by
  obtain ⟨value, hValue⟩ := hRun
  rwa [(hValue host hHost).1]

theorem Certain.exists_ok {run : Run κ α} (hRun : Certain steady run) {host : Host κ}
    (hHost : steady host) : ∃ value, (run.on host).1 = .ok value := by
  obtain ⟨value, hValue⟩ := hRun
  exact ⟨value, (hValue host hHost).1⟩

section Mirrors

variable {κ' : Type} {linked : Host κ → Host κ' → Prop}

/-- From linked hosts the two computations come to the same outcome, and they leave linked hosts. -/
def Mirrors (linked : Host κ → Host κ' → Prop) (first : Run κ α) (second : Run κ' α) : Prop :=
  ∀ host host', linked host host' →
    (first.on host).1 = (second.on host').1 ∧ linked (first.on host).2 (second.on host').2

theorem Mirrors.known (outcome : Except Abort α) :
    Mirrors linked (ExceptT.mk (Pure.pure outcome)) (ExceptT.mk (Pure.pure outcome)) :=
  fun _ _ hLinked => ⟨rfl, hLinked⟩

theorem Mirrors.pure (value : α) : Mirrors linked (pure value) (pure value) :=
  Mirrors.known (.ok value)

/-- The same is seen of the clock. -/
theorem Mirrors.now (hClock : ∀ host host', linked host host' → host.clock = host'.clock) :
    Mirrors linked now now := by
  intro host host' hLinked
  rw [on_now, on_now, hClock host host' hLinked]
  exact ⟨rfl, hLinked⟩

variable {first : Run κ α} {second : Run κ' α} {next : α → Run κ β} {next' : α → Run κ' β}

theorem Mirrors.bind (hRun : Mirrors linked first second)
    (hNext : ∀ value, Mirrors linked (next value) (next' value)) :
    Mirrors linked (first >>= next) (second >>= next') := by
  intro host host' hLinked
  obtain ⟨hOutcome, hAfter⟩ := hRun host host' hLinked
  rw [on_bind, on_bind]
  rcases hFirst : first.on host with ⟨outcome, after⟩
  rcases hSecond : second.on host' with ⟨outcome', after'⟩
  rw [hFirst, hSecond] at hOutcome hAfter
  simp only at hOutcome hAfter
  subst hOutcome
  cases outcome with
  | ok value => exact hNext value after after' hAfter
  | error abort => exact ⟨rfl, hAfter⟩

theorem Mirrors.map (f : α → β) (hRun : Mirrors linked first second) :
    Mirrors linked (f <$> first) (f <$> second) := by
  rw [map_eq_pure_bind, map_eq_pure_bind]
  exact hRun.bind fun value => .pure (f value)

theorem Mirrors.settle (hRun : Mirrors linked first second) :
    Mirrors linked first.settle second.settle := by
  intro host host' hLinked
  rw [on_settle, on_settle]
  exact ⟨congrArg Except.ok (hRun host host' hLinked).1, (hRun host host' hLinked).2⟩

theorem Mirrors.mapM {f : α → Run κ β} {g : α → Run κ' β}
    (hEach : ∀ x, Mirrors linked (f x) (g x)) (xs : List α) :
    Mirrors linked (xs.mapM f) (xs.mapM g) := by
  induction xs with
  | nil => exact .pure []
  | cons x xs ih =>
      rw [List.mapM_cons, List.mapM_cons]
      exact (hEach x).bind fun y => ih.bind fun ys => .pure (y :: ys)

end Mirrors

end ProcessCensus.Run

namespace ProcessCensus.Attempt

variable {κ α β : Type}

@[simp] theorem outcome_pure (value : α) :
    (pure value : Attempt κ α).outcome = pure (.ok value) := rfl

@[simp] theorem outcome_call (question : κ → Except Failure α × κ) :
    (call question).outcome = Run.call question := rfl

@[simp] theorem outcome_lift (run : Run κ α) : (lift run).outcome = .ok <$> run := rfl

theorem outcome_ensuring (attempt : Attempt κ α) (change : κ → κ) :
    (attempt.ensuring change).outcome = attempt.outcome.ensuring change := rfl

/-- An attempt goes on from the host that the first part leaves, unless that part fails. -/
theorem outcome_bind (attempt : Attempt κ α) (next : α → Attempt κ β) :
    (attempt >>= next).outcome = do
      match ← attempt.outcome with
      | .ok value => (next value).outcome
      | .error failure => return .error failure := by
  refine (ExceptT.run_bind attempt next).trans (bind_congr fun outcome => ?_)
  cases outcome <;> rfl

theorem outcome_map (f : α → β) (attempt : Attempt κ α) :
    (f <$> attempt).outcome = (f <$> ·) <$> attempt.outcome :=
  ExceptT.run_map f attempt

theorem lift_bind (run : Run κ α) (next : α → Run κ β) :
    lift (run >>= next) = lift run >>= fun value => lift (next value) :=
  ExceptT.lift_bind run next

/-- Records that are read one after the other are read together. -/
theorem mapM_read (f : α → Except Record.Fault β) (xs : List α) :
    (xs.mapM fun x => (lift (Run.read (f x)) : Attempt κ β)) = lift (Run.read (xs.mapM f)) := by
  induction xs with
  | nil => rfl
  | cons x xs ih =>
      rw [List.mapM_cons, List.mapM_cons, ih]
      simp only [Run.read_bind, lift_bind]
      rfl

/-- Goes on from a part that succeeds. -/
theorem on_bind_of_eq {attempt : Attempt κ α} {host after : Host κ} {value : α}
    (hAttempt : attempt.outcome.on host = (.ok (.ok value), after)) (next : α → Attempt κ β) :
    (attempt >>= next).outcome.on host = (next value).outcome.on after := by
  rw [outcome_bind, Run.on_bind_of_eq hAttempt]

/-- A failure of the first part is the failure of the whole. -/
theorem on_bind_of_failure {attempt : Attempt κ α} {host after : Host κ} {failure : Failure}
    (hAttempt : attempt.outcome.on host = (.ok (.error failure), after)) (next : α → Attempt κ β) :
    (attempt >>= next).outcome.on host = (.ok (.error failure), after) := by
  rw [outcome_bind, Run.on_bind_of_eq hAttempt]
  rfl

theorem on_lift_of_eq {run : Run κ α} {host after : Host κ} {value : α}
    (hRun : run.on host = (.ok value, after)) :
    (lift run).outcome.on host = (.ok (.ok value), after) := by
  rw [outcome_lift, Run.on_map, hRun]
  rfl

/-- A success needs no recovery. -/
theorem on_recover_of_eq {attempt : Attempt κ α} {host after : Host κ} {value : α}
    (hAttempt : attempt.outcome.on host = (.ok (.ok value), after)) (handle : Failure → Run κ α) :
    (attempt.recover handle).on host = (.ok value, after) := by
  rw [recover, Run.on_bind_of_eq hAttempt]
  rfl

theorem on_orNote_of_eq {attempt : Attempt κ α} {host after : Host κ} {value : α}
    (hAttempt : attempt.outcome.on host = (.ok (.ok value), after)) (notice : Failure → Notice) :
    (attempt.orNote notice).on host = (.ok (some value), after) := by
  refine on_recover_of_eq ?_ _
  rw [outcome_map, Run.on_map, hAttempt]
  rfl

/-- A failure leaves nothing for the parts behind it to do. -/
@[simp] theorem throw_bind (failure : Failure) (next : α → Attempt κ β) :
    (throw failure >>= next : Attempt κ β) = throw failure := rfl

theorem on_orNote (attempt : Attempt κ α) (notice : Failure → Notice) (host : Host κ) :
    ((attempt.orNote notice).on host).1 = Except.toOption <$> (attempt.outcome.on host).1 := by
  rw [orNote, recover, Run.on_bind, outcome_map, Run.on_map]
  rcases attempt.outcome.on host with ⟨_ | _ | _, after⟩ <;> rfl

/-- A notice leaves the kernel as it is. -/
theorem kernel_on_orNote (attempt : Attempt κ α) (notice : Failure → Notice) (host : Host κ) :
    ((attempt.orNote notice).on host).2.kernel = (attempt.outcome.on host).2.kernel := by
  rw [orNote, recover, Run.on_bind, outcome_map, Run.on_map]
  rcases attempt.outcome.on host with ⟨_ | _ | _, after⟩ <;> rfl

/-- Whatever the attempt succeeds with has the property. -/
def Ensures (property : α → Prop) (attempt : Attempt κ α) : Prop :=
  ∀ host value, (attempt.outcome.on host).1 = .ok (.ok value) → property value

theorem ensures_throw {property : α → Prop} (failure : Failure) :
    Ensures property (throw failure : Attempt κ α) := by
  intro host value hOn
  cases hOn

theorem ensures_pure {property : α → Prop} {value : α} (hValue : property value) :
    Ensures property (pure value : Attempt κ α) := by
  intro host other hOn
  cases hOn
  exact hValue

theorem ensures_bind {property : β → Prop} {attempt : Attempt κ α} {next : α → Attempt κ β}
    (hNext : ∀ value, Ensures property (next value)) : Ensures property (attempt >>= next) := by
  intro host value hOn
  rw [outcome_bind] at hOn
  obtain ⟨_ | middle, after, -, hAfter⟩ := Run.of_on_bind hOn
  · cases hAfter
  · exact hNext middle after value hAfter

theorem Ensures.of_orNote {property : α → Prop} {attempt : Attempt κ α}
    (hAttempt : Ensures property attempt) {notice : Failure → Notice} {host : Host κ} {value : α}
    (hOn : ((attempt.orNote notice).on host).1 = .ok (some value)) : property value := by
  rw [on_orNote] at hOn
  rcases hFirst : (attempt.outcome.on host).1 with _ | _ | other
  all_goals
    rw [hFirst] at hOn
    cases hOn
  exact hAttempt host value hFirst

section Leads

variable {before kept : Host κ → Prop} {middle : α → Host κ → Prop} {after : β → Host κ → Prop}

/-- From a host with the first property an attempt leads to what the last one says of its result and
the host then, or, if it fails or breaks off, to a host with the second property. -/
def Leads (before kept : Host κ → Prop) (after : α → Host κ → Prop) (attempt : Attempt κ α) : Prop :=
  ∀ host, before host →
    match attempt.outcome.on host with
    | (.ok (.ok value), last) => after value last
    | (.ok (.error _), last) => kept last
    | (.error _, last) => kept last

theorem leads_pure {value : β} (hValue : ∀ host, before host → after value host) :
    Leads before kept after (pure value) :=
  fun host hHost => hValue host hHost

theorem leads_throw (hKept : ∀ host, before host → kept host) (failure : Failure) :
    Leads before kept after (throw failure) :=
  fun host hHost => hKept host hHost

theorem leads_lift {run : Run κ β}
    (hRun : ∀ host, before host → ∃ value last, run.on host = (.ok value, last) ∧ after value last) :
    Leads before kept after (lift run) := by
  intro host hHost
  obtain ⟨value, last, hOn, hAfter⟩ := hRun host hHost
  rw [on_lift_of_eq hOn]
  exact hAfter

theorem Leads.bind {attempt : Attempt κ α} {next : α → Attempt κ β}
    (hFirst : Leads before kept middle attempt)
    (hNext : ∀ value, Leads (middle value) kept after (next value)) :
    Leads before kept after (attempt >>= next) := by
  intro host hHost
  have hMiddle := hFirst host hHost
  rw [outcome_bind, Run.on_bind]
  rcases hOn : attempt.outcome.on host with ⟨_ | _ | value, last⟩
  all_goals rw [hOn] at hMiddle
  · exact hMiddle
  · exact hMiddle
  · exact hNext value last hMiddle

/-- What is known beforehand asks nothing of the host. -/
theorem leads_ofExcept_bind {known : Except Failure α} {next : α → Attempt κ β}
    (hKept : ∀ host, before host → kept host)
    (hNext : ∀ value, known = .ok value → Leads before kept after (next value)) :
    Leads before kept after (ofExcept known >>= next) := by
  cases known with
  | ok value => exact hNext value rfl
  | error failure => exact leads_throw hKept failure

/-- To look at a known kernel changes nothing. -/
theorem leads_kernel_bind {base : κ} {next : κ → Attempt κ β}
    (hNext : Leads (·.kernel = base) kept after (next base)) :
    Leads (·.kernel = base) kept after (lift Run.kernel >>= next) := by
  rintro host rfl
  rw [on_bind_of_eq (on_lift_of_eq (Run.on_kernel host))]
  exact hNext host rfl

/-- A success leads where the attempt does; without one there is no answer, but perhaps a notice. -/
theorem Leads.orNote {after : α → Host κ → Prop} {attempt : Attempt κ α}
    (hAttempt : Leads before kept after attempt)
    (hNote : ∀ host notice, kept host → kept { host with journal := notice :: host.journal })
    (notice : Failure → Notice) {host : Host κ} (hHost : before host) :
    (∃ value last, (attempt.orNote notice).on host = (.ok (some value), last) ∧ after value last) ∨
      ∃ outcome last, (attempt.orNote notice).on host = (outcome, last) ∧
        outcome.toOption.join = none ∧ kept last := by
  have hLast := hAttempt host hHost
  rw [Attempt.orNote, recover, outcome_map, Run.on_bind, Run.on_map]
  rcases hOn : attempt.outcome.on host with ⟨_ | _ | value, last⟩
  all_goals rw [hOn] at hLast
  · exact .inr ⟨_, _, rfl, rfl, hLast⟩
  · exact .inr ⟨_, _, rfl, rfl, hNote last _ hLast⟩
  · exact .inl ⟨value, last, rfl, hLast⟩

end Leads

/-- The attempts cannot be told apart by what `f` leaves of their results. -/
def Alike (f : α → β) (first second : Attempt κ α) : Prop :=
  f <$> first = f <$> second

theorem Alike.refl (f : α → β) (attempt : Attempt κ α) : Alike f attempt attempt :=
  Eq.refl (f <$> attempt)

theorem alike_bind {γ : Type} {f : β → γ} (attempt : Attempt κ α) {next next' : α → Attempt κ β}
    (hNext : ∀ value, Alike f (next value) (next' value)) :
    Alike f (attempt >>= next) (attempt >>= next') := by
  rw [Alike, map_bind, map_bind]
  exact bind_congr hNext

theorem Alike.orNote {f : α → β} {first second : Attempt κ α} (hAlike : Alike f first second)
    (notice : Failure → Notice) (host : Host κ) :
    Option.map f <$> ((first.orNote notice).on host).1 =
      Option.map f <$> ((second.orNote notice).on host).1 := by
  have hOutcome : ∀ attempt : Attempt κ α,
      Option.map f <$> ((attempt.orNote notice).on host).1 =
        Except.toOption <$> ((f <$> attempt).outcome.on host).1 := by
    intro attempt
    rw [on_orNote, outcome_map, Run.on_map]
    rcases (attempt.outcome.on host).1 with _ | _ | _ <;> rfl
  rw [hOutcome, hOutcome, hAlike]

section Yields

variable {steady : Host κ → Prop} {attempt : Attempt κ α} {value : α}

theorem yields_lift {run : Run κ α} (hRun : Run.Yields steady run (.ok value)) :
    Run.Yields steady (lift run).outcome (.ok (.ok value)) := by
  rw [outcome_lift]
  exact hRun.map Except.ok

theorem yields_ofExcept (result : Except Failure α) :
    Run.Yields steady (ofExcept result : Attempt κ α).outcome (.ok result) := by
  cases result <;> exact fun _ hHost => ⟨rfl, hHost⟩

theorem yields_bind_ok {next : α → Attempt κ β} {outcome : Except Abort (Except Failure β)}
    (hAttempt : Run.Yields steady attempt.outcome (.ok (.ok value)))
    (hNext : Run.Yields steady (next value).outcome outcome) :
    Run.Yields steady (attempt >>= next).outcome outcome := by
  rw [outcome_bind]
  exact hAttempt.bind_ok hNext

theorem yields_map {outcome : Except Abort (Except Failure α)} (f : α → β)
    (hAttempt : Run.Yields steady attempt.outcome outcome) :
    Run.Yields steady (f <$> attempt).outcome ((f <$> ·) <$> outcome) := by
  rw [outcome_map]
  exact hAttempt.map (f <$> ·)

theorem yields_orNote {result : Except Failure α} {notice : Failure → Notice}
    (hAttempt : Run.Yields steady attempt.outcome (.ok result))
    (hNote : ∀ failure, Run.Yields steady (Run.note (notice failure)) (.ok ())) :
    Run.Yields steady (attempt.orNote notice) (.ok result.toOption) := by
  refine (yields_map some hAttempt).bind_ok ?_
  cases result with
  | ok value => exact .pure (some value)
  | error failure => exact (hNote failure).bind_ok (.pure none)

theorem certain_orNote {notice : Failure → Notice} (hAttempt : Run.Certain steady attempt.outcome)
    (hNote : ∀ failure, Run.Certain steady (Run.note (notice failure))) :
    Run.Certain steady (attempt.orNote notice) := by
  obtain ⟨result, hResult⟩ := hAttempt
  exact ⟨result.toOption, yields_orNote hResult fun failure => (hNote failure).elim fun _ => id⟩

end Yields

section Completes

variable {X : Type} {steady : X → Host κ → Prop} {complete : X → β → β}

/-- Whatever comes from aside, the attempt comes to one and the same result, completed by what comes
from aside. -/
def Completes (steady : X → Host κ → Prop) (complete : X → β → β) (attempt : X → Attempt κ β) : Prop :=
  ∃ core : Except Failure β, ∀ x,
    Run.Yields (steady x) (attempt x).outcome (.ok (complete x <$> core))

theorem completes_throw (failure : Failure) : Completes steady complete fun _ => throw failure :=
  ⟨.error failure, fun _ => .pure (Except.error failure)⟩

/-- A result that takes from aside no more than what completes it. -/
theorem completes_pure {result : X → β} (hResult : ∀ x y, complete x (result y) = result x) :
    Completes steady complete fun x => pure (result x) := by
  by_cases hSome : Nonempty X
  case neg => exact ⟨.error (.unsupported ""), fun x => absurd ⟨x⟩ hSome⟩
  case pos =>
    obtain ⟨y⟩ := hSome
    refine ⟨.ok (result y), fun x => ?_⟩
    rw [show complete x <$> (Except.ok (result y) : Except Failure β) = .ok (result x) from
      congrArg Except.ok (hResult x y)]
    exact .pure (Except.ok (result x))

theorem completes_ofExcept_bind {known : Except Failure α} {next : X → α → Attempt κ β}
    (hNext : ∀ value, Completes steady complete fun x => next x value) :
    Completes steady complete fun x => ofExcept known >>= next x := by
  cases known with
  | ok value => exact hNext value
  | error failure => exact completes_throw failure

theorem completes_lift_bind {run : X → Run κ α} {value : X → α} {next : X → α → Attempt κ β}
    (hRun : ∀ x, Run.Yields (steady x) (run x) (.ok (value x)))
    (hNext : Completes steady complete fun x => next x (value x)) :
    Completes steady complete fun x => lift (run x) >>= next x := by
  obtain ⟨core, hCore⟩ := hNext
  exact ⟨core, fun x => yields_bind_ok (yields_lift (hRun x)) (hCore x)⟩

theorem completes_kernel_bind {next : X → κ → Attempt κ β} (known : X → κ)
    (hSame : ∀ x host, steady x host → next x host.kernel = next x (known x))
    (hNext : Completes steady complete fun x => next x (known x)) :
    Completes steady complete fun x => lift Run.kernel >>= next x := by
  obtain ⟨core, hCore⟩ := hNext
  refine ⟨core, fun x => ?_⟩
  have hKernel : (lift Run.kernel >>= next x).outcome =
      Run.kernel >>= fun kernel => (next x kernel).outcome := rfl
  rw [hKernel]
  exact (hCore x).kernel_bind fun host hHost => congrArg outcome (hSame x host hHost)

end Completes

end ProcessCensus.Attempt

namespace ProcessCensus.Memo

variable {κ α : Type} {memo : Memo α} {now : Nat} {host after : Host κ} {value : α}

theorem on_obtain_of_fresh (hFresh : memo.fresh? now = some value) (supplier : Run κ α) :
    (memo.obtain now supplier).on host = (.ok (value, memo), host) := by
  rw [obtain, hFresh]
  rfl

theorem on_obtain_of_stale (hStale : memo.fresh? now = none) {supplier : Run κ α}
    (hSupplier : supplier.on host = (.ok value, after)) :
    (memo.obtain now supplier).on host = (.ok (value, memo.publish now value), after) := by
  rw [obtain, hStale, Run.on_bind_of_eq hSupplier]
  rfl

/-- A value that may stand in for the published one is the one that was published last. -/
theorem getD_fresh?_publish (memo : Memo α) (now : Nat) (value : α) :
    ((memo.publish now value).fresh? now).getD value = value := by
  rw [fresh?, publish, Option.filter_some]
  split <;> rfl

end ProcessCensus.Memo
