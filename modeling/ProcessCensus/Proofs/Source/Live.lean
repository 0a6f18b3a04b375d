import ProcessCensus.Proofs.Census.Listing

/-!
Sources that tell of live processes only. A census of such a source has a snapshot of exactly the
processes of which the source tells something, and leaves what is told as it is.
-/

namespace ProcessCensus

/-- Attributes as a source tells them of a live process: there is a thread and a state, and how long the
process has been up is left to the census. -/
structure Attributes.Fresh (a : Attributes) : Prop where
  threads : 1 ≤ a.threads
  state : a.state ≠ .invalid
  upTime : a.upTime = 0

theorem Attributes.Fresh.isLive {a : Attributes} (hFresh : a.Fresh) : a.isLive = true :=
  isLive_iff.mpr ⟨UInt32.lt_of_lt_of_le (by decide) hFresh.threads, hFresh.state⟩

/-- What holds of the attributes of each process, from hosts that a look leaves steady, holds of all
that are read one after the other. -/
theorem Source.forall_readEach {κ : Type} {steady : Host κ → Prop} {property : Attributes → Prop}
    {attributes : Int32 → Release → Run κ (Option Attributes)} {release : Release}
    (hEach : ∀ pid host, steady host → steady ((attributes pid release).on host).2 ∧
      ∀ a, ((attributes pid release).on host).1 = .ok (some a) → property a)
    (pids : List Int32) {host : Host κ} (hHost : steady host) {answers : List (Option Attributes)}
    (hAnswers : ((readEach attributes pids release).on host).1 = .ok answers) :
    ∀ a, some a ∈ answers → property a := by
  rw [readEach] at hAnswers
  induction pids generalizing host answers with
  | nil =>
      cases hAnswers
      simp
  | cons pid pids ih =>
      rw [List.mapM_cons] at hAnswers
      obtain ⟨first, after, hFirst, hAnswers⟩ := Run.of_on_bind hAnswers
      obtain ⟨rest, last, hRest, hAnswers⟩ := Run.of_on_bind hAnswers
      obtain ⟨hAfter, hProperty⟩ := hEach pid host hHost
      rw [hFirst] at hAfter hProperty
      cases hAnswers
      intro a hMem
      obtain rfl | hMem := List.mem_cons.mp hMem
      · exact hProperty a rfl
      · exact ih hAfter (congrArg Prod.fst hRest) a hMem

/-- What is told of a process, one by one and in batches, is told of a live one, and a snapshot of it
differs from that by the time it has been up. -/
structure Source.ReportsLive {κ : Type} (source : Source κ) : Prop where
  attributes : ∀ pid release host a,
    ((source.attributes pid release).on host).1 = .ok (some a) → a.Fresh
  batch : ∀ pids release host answers,
    ((source.batch pids release).on host).1 = .ok answers → ∀ a, some a ∈ answers → a.Fresh
  get : ∀ census : Census κ, census.source = source → ∀ pid host,
    let look := (source.attributes pid census.release).on host
    ((census.get pid).on host).1 = Option.map (fun a =>
      { pid, release := census.release, invocation := none, commandLine := none
        attributes :=
          { a with upTime := Attributes.elapsed a.startTime (.ofNat look.2.clock.toNat) } }) <$> look.1

namespace Source.ReportsLive

variable {κ : Type} {source : Source κ}

/-- A census cannot do other than pass on what is told of live processes. -/
theorem of_fresh
    (hAttributes : ∀ pid release host a,
      ((source.attributes pid release).on host).1 = .ok (some a) → a.Fresh)
    (hBatch : ∀ pids release host answers,
      ((source.batch pids release).on host).1 = .ok answers → ∀ a, some a ∈ answers → a.Fresh) :
    source.ReportsLive := by
  refine ⟨hAttributes, hBatch, ?_⟩
  rintro census rfl pid host look
  have hFresh := hAttributes pid census.release host
  change (Run.on (Snapshot.probe census.source pid census.release >>= fun snapshot =>
    pure (Option.guard Snapshot.isValid snapshot)) host).1 = _
  rw [Snapshot.probe, bind_assoc, Run.on_bind]
  rcases hOn : (census.source.attributes pid census.release).on host with ⟨outcome, after⟩
  rw [hOn] at hFresh
  simp only [look, hOn]
  cases outcome with
  | error abort => rfl
  | ok answer =>
      have hLive : ∀ a ∈ answer, a.isLive = true := fun a hMem =>
        (hFresh a (congrArg Except.ok (Option.mem_def.mp hMem))).isLive
      have hGuard := Snapshot.guard_taken_of_live census.release after.clock pid hLive
      refine (congrArg Except.ok hGuard).trans ?_
      cases answer with
      | none => rfl
      | some a => simp only [Option.map_some, Snapshot.taken, Attributes.validated, hLive a rfl]; rfl

/-- A batch that reads one process after the other tells nothing else than the looks at each. -/
theorem of_readEach (hBatch : source.batch = Source.readEach source.attributes)
    (hAttributes : ∀ pid release host a,
      ((source.attributes pid release).on host).1 = .ok (some a) → a.Fresh) :
    source.ReportsLive := by
  refine of_fresh hAttributes fun pids release host answers hAnswers => ?_
  rw [hBatch] at hAnswers
  have hEach : ∀ pid host, True → True ∧ ∀ a,
      ((source.attributes pid release).on host).1 = .ok (some a) → a.Fresh :=
    fun pid host _ => ⟨trivial, hAttributes pid release host⟩
  exact forall_readEach hEach pids trivial hAnswers

end Source.ReportsLive

end ProcessCensus
