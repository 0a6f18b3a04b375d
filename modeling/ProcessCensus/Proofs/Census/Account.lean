import ProcessCensus.Census.Basic
import ProcessCensus.Proofs.Run

/-!
Keeping account of the batches that a census asks for. The account stands beside the kernel and is
never looked at, so a census with an account answers what it answers without one.
-/

namespace ProcessCensus

variable {κ α β : Type}

/-- The batches that were asked for, in their order. -/
abbrev BatchAccount := List (List Int32)

namespace Host

/-- The host without its account. -/
def own (host : Host (κ × BatchAccount)) : Host κ :=
  { host with kernel := host.kernel.1 }

/-- The batches that have been asked for. -/
def account (host : Host (κ × BatchAccount)) : BatchAccount :=
  host.kernel.2

/-- The host with an account that has no batch yet. -/
def unasked (host : Host κ) : Host (κ × BatchAccount) :=
  { host with kernel := (host.kernel, []) }

end Host

namespace Run

/-- A computation that leaves the account as it is. -/
def besideAccount (run : Run κ α) : Run (κ × BatchAccount) α :=
  fun host =>
    let (outcome, after) := run.on host.own
    (outcome, { after with kernel := (after.kernel, host.account) })

theorem besideAccount_on_unasked (run : Run κ α) (host : Host κ) :
    run.besideAccount.on host.unasked = ((run.on host).1, (run.on host).2.unasked) := rfl

/-- The computation does what `run` does, and enters the `asked` batches into the account. -/
def Accounts (asked : BatchAccount) (accounted : Run (κ × BatchAccount) α) (run : Run κ α) :
    Prop :=
  ∀ host, (accounted.on host).1 = (run.on host.own).1 ∧
    (accounted.on host).2.own = (run.on host.own).2 ∧
    (accounted.on host).2.account = host.account ++ asked

theorem Accounts.besideAccount (run : Run κ α) : Accounts [] run.besideAccount run := by
  intro host
  refine ⟨rfl, rfl, ?_⟩
  rw [List.append_nil]
  rfl

theorem Accounts.pure (value : α) :
    Accounts [] (pure value : Run (κ × BatchAccount) α) (pure value) := by
  intro host
  rw [List.append_nil]
  exact ⟨rfl, rfl, rfl⟩

/-- The second part must ask for nothing: it does not take place if the first one breaks off. -/
theorem Accounts.bind {asked : BatchAccount} {accounted : Run (κ × BatchAccount) α}
    {run : Run κ α} {next : α → Run (κ × BatchAccount) β} {follow : α → Run κ β}
    (hRun : Accounts asked accounted run) (hNext : ∀ value, Accounts [] (next value) (follow value)) :
    Accounts asked (accounted >>= next) (run >>= follow) := by
  intro host
  obtain ⟨hOutcome, hOwn, hAccount⟩ := hRun host
  rw [on_bind, on_bind]
  rcases hLeft : accounted.on host with ⟨outcome, after⟩
  rcases hRight : run.on host.own with ⟨_, own⟩
  rw [hLeft, hRight] at hOutcome hOwn
  rw [hLeft] at hAccount
  dsimp only at hOutcome hOwn hAccount
  subst hOutcome hOwn
  cases outcome with
  | error abort => exact ⟨rfl, rfl, hAccount⟩
  | ok value =>
      obtain ⟨hSame, hAfter, hQuiet⟩ := hNext value after
      rw [List.append_nil, hAccount] at hQuiet
      exact ⟨hSame, hAfter, hQuiet⟩

theorem Accounts.map {asked : BatchAccount} {accounted : Run (κ × BatchAccount) α} {run : Run κ α}
    (f : α → β) (hRun : Accounts asked accounted run) :
    Accounts asked (f <$> accounted) (f <$> run) := by
  rw [map_eq_pure_bind, map_eq_pure_bind]
  exact hRun.bind fun value => Accounts.pure (f value)

theorem Accounts.mapM {f : α → Run (κ × BatchAccount) β} {g : α → Run κ β}
    (hEach : ∀ x, Accounts [] (f x) (g x)) (xs : List α) :
    Accounts [] (xs.mapM f) (xs.mapM g) := by
  induction xs with
  | nil => exact Accounts.pure []
  | cons x xs ih =>
      rw [List.mapM_cons, List.mapM_cons]
      exact (hEach x).bind fun y => ih.bind fun ys => Accounts.pure (y :: ys)

/-- Settled computations do not break off, so all of them take place. -/
theorem Accounts.mapM_settle {f : List Int32 → Run (κ × BatchAccount) β} {g : List Int32 → Run κ β}
    (hEach : ∀ x, Accounts [x] (f x) (g x)) (xs : List (List Int32)) :
    Accounts xs (xs.mapM fun x => (f x).settle) (xs.mapM fun x => (g x).settle) := by
  induction xs with
  | nil => exact Accounts.pure []
  | cons x xs ih =>
      intro host
      obtain ⟨hOutcome, hOwn, hAccount⟩ := hEach x host
      have hRest := ih.bind (fun ys => Accounts.pure (((f x).on host).1 :: ys)) ((f x).on host).2
      rw [hAccount, List.append_assoc, List.singleton_append] at hRest
      rw [List.mapM_cons, List.mapM_cons, on_bind, on_bind, on_settle, on_settle, ← hOutcome,
        ← hOwn]
      exact hRest

end Run

/-- The source with an account of the batches that it is asked for. -/
def Source.accounted (source : Source κ) : Source (κ × BatchAccount) where
  platform := source.platform
  list := ExceptT.mk source.list.outcome.besideAccount
  currentPid := source.currentPid.besideAccount
  attributes pid release := (source.attributes pid release).besideAccount
  batch pids release := do
    Run.call fun (kernel, asked) => ((), (kernel, asked ++ [pids]))
    (source.batch pids release).besideAccount
  invocation pid := (source.invocation pid).besideAccount

theorem Source.accounted_batch (source : Source κ) (pids : List Int32) (release : Release) :
    Run.Accounts [pids] (source.accounted.batch pids release) (source.batch pids release) :=
  fun _ => ⟨rfl, rfl, rfl⟩

theorem Snapshot.ofAnswer_accounts (pid : Int32) (release : Release) (answer : Option Attributes) :
    Run.Accounts [] (ofAnswer pid release answer) (ofAnswer pid release answer : Run κ Snapshot) := by
  intro host
  rw [List.append_nil]
  exact ⟨rfl, rfl, rfl⟩

namespace Census

/-- The census of a system with an account of the batches that it is asked for. -/
def accounted (census : Census κ) : Census (κ × BatchAccount) where
  source := census.source.accounted
  release := census.release
  settings := census.settings
  available := census.available

theorem resolveShare_accounts (census : Census κ) (pids : List Int32) :
    Run.Accounts [pids] (census.accounted.resolveShare pids) (census.resolveShare pids) :=
  (census.source.accounted_batch pids census.release).bind fun answers =>
    (Run.Accounts.mapM (fun pair : Int32 × Option Attributes =>
      Snapshot.ofAnswer_accounts pair.1 census.release pair.2) (pids.zip answers)).bind
        fun _ => Run.Accounts.pure _

end Census

end ProcessCensus
