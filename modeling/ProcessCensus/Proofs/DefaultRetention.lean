import ProcessCensus.DefaultRetention
import ProcessCensus.Proofs.Memo.Moves
import ProcessCensus.Proofs.Settings

/-!
How old the configured retention can be. Variables change and time passes between the calls that ask
for it. A call reads the settings if they were last read a minute ago or earlier, and answers with what
was read otherwise. A memo that takes its time to live from such a call keeps it.
-/

namespace ProcessCensus.DefaultRetention

open Memo

/-- A variable is set to something that asks for nothing, be it text or not. -/
inductive Unusable (vars : Variables) : Prop
  | retention {value : Bytes} (hValue : vars.lookup "PROCVIEW_MEMOIZER_EXPIRATION" = some value)
      (hBad : ∀ text, Text.Utf8.decode? value = some text →
        ∀ retention, ¬Settings.AsksRetention text retention)
  | workers {value : Bytes} (hValue : vars.lookup "PROCVIEW_THREADS" = some value)
      (hBad : ∀ text, Text.Utf8.decode? value = some text → ∀ n, ¬Settings.AsksWorkers text n)

/-- The number of workers is set to bytes that are no text. -/
def Garbled (vars : Variables) : Prop :=
  ∃ value, vars.lookup "PROCVIEW_THREADS" = some value ∧ Text.Utf8.decode? value = none

theorem text?_eq_map {vars : Variables} {key : String} {value : Bytes}
    (hValue : vars.lookup key = some value) :
    vars.text? key = (Text.Utf8.decode? value).map String.ofList := by
  rw [Variables.text?, hValue]
  rfl

/-- With one value unusable, the time to keep values is the default one, unless it is the number of
workers that is no text. That counts as not set. -/
theorem Unusable.retention_loaded {vars : Variables} (hUnusable : Unusable vars)
    (hText : ¬Garbled vars) : (Settings.loaded vars).retention = some 300 := by
  rw [Settings.loaded]
  cases hRead : Settings.ofVariables vars with
  | error failure => rfl
  | ok settings =>
      obtain ⟨hRetention, hWorkers⟩ := Settings.ofLookup_eq_ok_iff.mp hRead
      cases hUnusable with
      | @retention value hValue hBad =>
          rw [text?_eq_map hValue] at hRetention
          cases hDecoded : Text.Utf8.decode? value with
          | none =>
              rw [hDecoded] at hRetention
              exact hRetention
          | some text =>
              rw [hDecoded, Option.map_some, Option.elim_some, String.toList_ofList] at hRetention
              exact absurd hRetention (hBad text hDecoded _)
      | @workers value hValue hBad =>
          rw [text?_eq_map hValue] at hWorkers
          cases hDecoded : Text.Utf8.decode? value with
          | none => exact absurd ⟨value, hValue, hDecoded⟩ hText
          | some text =>
              rw [hDecoded, Option.map_some, Option.elim_some, String.toList_ofList] at hWorkers
              obtain ⟨n, -, hAsks⟩ := hWorkers
              exact absurd hAsks (hBad text hDecoded n)

/-- The host with other variables. -/
def withVars (host : Host DefaultRetention) (vars : Variables) : Host DefaultRetention :=
  { host with kernel := { host.kernel with vars } }

/-- What is answered depends on the variables, so that they have to be read. -/
def Consults (host : Host DefaultRetention) : Prop :=
  ∃ first second, (current.on (withVars host first)).1 ≠ (current.on (withVars host second)).1

section Current

variable {host : Host DefaultRetention}

theorem current_on_of_fresh {retention : Option Nat}
    (hFresh : host.kernel.memo.fresh? host.kernel.clock = some retention) :
    current.on host = (.ok retention, host) := by
  rw [current, Run.on_bind_of_eq (Run.on_kernel host),
    Run.on_bind_of_eq (Memo.on_obtain_of_fresh hFresh _)]
  rfl

/-- The settings are read and kept. If they are of no use, the journal says so. -/
theorem current_on_of_stale (hStale : host.kernel.memo.Stale host.kernel.clock) :
    current.on host =
      (.ok (Settings.loaded host.kernel.vars).retention,
        { ((Settings.load host.kernel.vars).on host).2 with
          kernel := { host.kernel with
            memo := host.kernel.memo.publish host.kernel.clock
              (Settings.loaded host.kernel.vars).retention } }) := by
  have hNone := fresh?_eq_none_iff.mpr hStale
  have hRead : (do return (← Settings.load host.kernel.vars).retention :
      Run DefaultRetention (Option Nat)).on host =
        (.ok (Settings.loaded host.kernel.vars).retention,
          ((Settings.load host.kernel.vars).on host).2) := by
    rw [Run.on_bind_of_eq (Settings.load_on _ _), Settings.load_on]
    rfl
  rw [current, Run.on_bind_of_eq (Run.on_kernel host),
    Run.on_bind_of_eq (Memo.on_obtain_of_stale hNone hRead)]
  have hKernel : ((Settings.load host.kernel.vars).on host).2.kernel = host.kernel := by
    rw [Settings.load_on]
    cases Settings.ofVariables host.kernel.vars <;> rfl
  rw [Run.on_bind_of_eq (Run.on_call _ _), Run.on_pure, hKernel]

/-- The variables have to be read unless what was read from them before is still fresh. -/
theorem consults_iff : Consults host ↔ host.kernel.memo.Stale host.kernel.clock := by
  constructor
  · rintro ⟨first, second, hDiffer⟩
    refine fresh?_eq_none_iff.mp (Option.eq_none_iff_forall_ne_some.mpr fun retention hFresh => ?_)
    refine hDiffer ?_
    rw [@current_on_of_fresh (withVars host first) retention hFresh,
      @current_on_of_fresh (withVars host second) retention hFresh]
  · intro hStale
    -- Two sets of variables that ask for different retentions.
    have hDiffer : (Settings.loaded []).retention ≠
        (Settings.loaded [("PROCVIEW_MEMOIZER_EXPIRATION", [0x31])]).retention := by decide
    refine ⟨[], [("PROCVIEW_MEMOIZER_EXPIRATION", [0x31])], fun hSame => hDiffer ?_⟩
    have hRead : ∀ vars, (current.on (withVars host vars)).1 = .ok (Settings.loaded vars).retention :=
      fun vars => congrArg Prod.fst (@current_on_of_stale (withVars host vars) hStale)
    rw [hRead, hRead] at hSame
    exact Except.ok.inj hSame

theorem newMemo_on {α : Type} (host : Host DefaultRetention) :
    (newMemo : Run DefaultRetention (Memo α)).on host =
      (.unfilled <$> (current.on host).1, (current.on host).2) :=
  Run.on_map Memo.unfilled current host

end Current

/-- What may happen. -/
inductive Deed where
  /-- A variable is set, or removed. -/
  | set (key : String) (value : Option Bytes)
  | advance (milliseconds : Nat)
  /-- Somebody asks for the configured retention. -/
  | ask
  /-- Somebody makes a memo with the configured retention as its time to live. -/
  | make
  /-- Something happens to one of the memos that were made. -/
  | use (index : Nat) (event : Machine.Event)
deriving DecidableEq

/-- A host, and the memos that were made on it, each with its callers. -/
structure World (α : Type) where
  host : Host DefaultRetention
  /-- The last moment that the clock can tell. -/
  horizon : Nat
  memos : List (Machine α)

variable {α : Type}

/-- The world after a deed. What cannot happen to a memo leaves it as it is. -/
def World.act (supply : Nat → Nat → α) (world : World α) : Deed → World α
  | .set key value =>
    { world with host := { world.host with kernel := world.host.kernel.setVariable key value } }
  | .advance milliseconds =>
    { world with
      host := { world.host with kernel := world.host.kernel.advance milliseconds }
      memos := world.memos.map (·.advance milliseconds) }
  | .ask => { world with host := (current.on world.host).2 }
  | .make =>
    let (made, host) := (newMemo : Run DefaultRetention (Memo α)).on world.host
    { world with
      host
      memos := world.memos ++ made.toOption.toList.map fun memo =>
        { Machine.start memo.ttl world.horizon with memo, clock := host.kernel.clock } }
  | .use index event =>
    { world with
      memos := world.memos.modify index fun machine =>
        (machine.apply (supply index) event).getD machine }

/-- The memo that is made keeps its values as long as is answered. -/
theorem World.memos_make (supply : Nat → Nat → α) {world : World α} {ttl : Option Nat}
    (hAnswer : (current.on world.host).1 = .ok ttl) :
    (world.act supply .make).memos = world.memos ++
      [{ Machine.start ttl world.horizon with
        clock := (current.on world.host).2.kernel.clock }] := by
  have hMade := newMemo_on (α := α) world.host
  rw [hAnswer] at hMade
  rw [World.act, hMade]
  rfl

/-- A memo keeps its time to live through whatever happens. -/
theorem World.ttl_act (supply : Nat → Nat → α) {world : World α} {index : Nat} {machine : Machine α}
    (hMachine : world.memos[index]? = some machine) (deed : Deed) :
    ∃ next, (world.act supply deed).memos[index]? = some next ∧
      next.memo.ttl = machine.memo.ttl := by
  cases deed with
  | set key value => exact ⟨machine, hMachine, rfl⟩
  | ask => exact ⟨machine, hMachine, rfl⟩
  | advance milliseconds =>
      exact ⟨machine.advance milliseconds, by simp [World.act, hMachine], rfl⟩
  | make =>
      obtain ⟨hLt, -⟩ := List.getElem?_eq_some_iff.mp hMachine
      exact ⟨machine, by simp [World.act, List.getElem?_append_left hLt, hMachine], rfl⟩
  | use other event =>
      by_cases hOther : other = index
      · refine ⟨(machine.apply (supply other) event).getD machine, ?_, ?_⟩
        · simp [World.act, hOther, hMachine]
        · cases hApply : machine.apply (supply other) event with
          | none => rfl
          | some next => exact (Machine.happens_of_apply hApply).ttl_eq
      · exact ⟨machine, by simp [World.act, hOther, hMachine], rfl⟩

/-- A world whose settings count as not read, and what happens in it moment by moment. The supplier of
the memo at `index` answers `supply index`. A run that ends is a history in which time stands still from
then on. -/
structure History (α : Type) where
  start : World α
  minute : start.host.kernel.memo.ttl = some 60000
  expired : start.host.kernel.memo.Stale start.host.kernel.clock
  supply : Nat → Nat → α
  deed : Nat → Deed

namespace History

variable (history : History α)

/-- The world at a moment. -/
def world : Nat → World α
  | 0 => history.start
  | k + 1 => (world k).act history.supply (history.deed k)

/-- The host at a moment. -/
def host (k : Nat) : Host DefaultRetention := (history.world k).host

/-- The time of a moment in milliseconds. -/
def clock (k : Nat) : Nat := (history.host k).kernel.clock

/-- The variables at a moment. -/
def vars (k : Nat) : Variables := (history.host k).kernel.vars

/-- What whoever asks at a moment is answered. -/
def answer (k : Nat) : Except Abort (Option Nat) := (current.on (history.host k)).1

/-- Somebody asks at this moment, perhaps to make a memo. -/
def Calls (k : Nat) : Prop := history.deed k = .ask ∨ history.deed k = .make

instance (k : Nat) : Decidable (history.Calls k) := inferInstanceAs (Decidable (_ ∨ _))

/-- Somebody asks at this moment, and the settings are read. -/
def Reads (k : Nat) : Prop := history.Calls k ∧ Consults (history.host k)

/-- Of the moments before `k`, this is the last one at which the settings were read. -/
structure Latest (j k : Nat) : Prop where
  before : j < k
  reads : history.Reads j
  quiet : ∀ i, j < i → i < k → ¬history.Reads i

variable {history} {j k : Nat}

theorem host_succ_of_calls (hCalls : history.Calls k) :
    history.host (k + 1) = (current.on (history.host k)).2 := by
  rcases hCalls with hDeed | hDeed
  · rw [host, world, hDeed]
    rfl
  · rw [host, world, hDeed]
    exact congrArg Prod.snd (newMemo_on (history.host k))

/-- Between the calls time may pass, and what was read stays. -/
theorem quiet_of_not_calls (hQuiet : ¬history.Calls k) :
    (history.host (k + 1)).kernel.memo = (history.host k).kernel.memo ∧
      history.clock k ≤ history.clock (k + 1) := by
  rw [clock, clock, host, host, world]
  cases hDeed : history.deed k with
  | set key value => exact ⟨rfl, Nat.le_refl _⟩
  | advance milliseconds => exact ⟨rfl, Nat.le_add_right _ _⟩
  | ask => exact absurd (.inl hDeed) hQuiet
  | make => exact absurd (.inr hDeed) hQuiet
  | use index event => exact ⟨rfl, Nat.le_refl _⟩

theorem reads_iff : history.Reads k ↔
    history.Calls k ∧ (history.host k).kernel.memo.Stale (history.clock k) :=
  and_congr_right fun _ => consults_iff

/-- Who asks while what was read is fresh gets that, and leaves everything as it is. -/
theorem fresh_of_not_reads (hCalls : history.Calls k) (hFresh : ¬history.Reads k) :
    ∃ retention, (history.host k).kernel.memo.fresh? (history.clock k) = some retention ∧
      history.answer k = .ok retention ∧ history.host (k + 1) = history.host k := by
  have hSome : (history.host k).kernel.memo.fresh? (history.clock k) ≠ none :=
    fun hNone => hFresh (reads_iff.mpr ⟨hCalls, fresh?_eq_none_iff.mp hNone⟩)
  obtain ⟨retention, hRetention⟩ := Option.ne_none_iff_exists'.mp hSome
  have hCurrent := current_on_of_fresh hRetention
  rw [host_succ_of_calls hCalls, answer, hCurrent]
  exact ⟨retention, hRetention, rfl, rfl⟩

/-- A moment at which nothing is read leaves what was read, and the clock does not go back. -/
theorem quiet_of_not_reads (hQuiet : ¬history.Reads k) :
    (history.host (k + 1)).kernel.memo = (history.host k).kernel.memo ∧
      history.clock k ≤ history.clock (k + 1) := by
  by_cases hCalls : history.Calls k
  · obtain ⟨_, -, -, hHost⟩ := fresh_of_not_reads hCalls hQuiet
    rw [clock, clock, hHost]
    exact ⟨rfl, Nat.le_refl _⟩
  · exact quiet_of_not_calls hCalls

/-- Where the settings are read, the retention they name is answered and published. -/
theorem answer_of_reads (hReads : history.Reads k) :
    history.answer k = .ok (Settings.loaded (history.vars k)).retention ∧
      history.clock (k + 1) = history.clock k ∧
      (history.host (k + 1)).kernel.memo = (history.host k).kernel.memo.publish (history.clock k)
        (Settings.loaded (history.vars k)).retention := by
  have hCurrent := current_on_of_stale (reads_iff.mp hReads).2
  rw [clock, host_succ_of_calls hReads.1, answer, hCurrent]
  exact ⟨rfl, rfl, rfl⟩

theorem Latest.succ (hLatest : history.Latest j k) (hQuiet : ¬history.Reads k) :
    history.Latest j (k + 1) where
  before := Nat.lt_succ_of_lt hLatest.before
  reads := hLatest.reads
  quiet i hAfter hBefore := by
    rcases Nat.lt_succ_iff_lt_or_eq.mp hBefore with hLt | rfl
    · exact hLatest.quiet i hAfter hLt
    · exact hQuiet

theorem Reads.latest (hReads : history.Reads k) : history.Latest k (k + 1) where
  before := Nat.lt_succ_self k
  reads := hReads
  quiet _ hAfter hBefore := absurd hBefore (Nat.not_lt.mpr hAfter)

variable (history)

/-- What was read last is kept for a minute from then on. Until somebody asks, nothing is kept. -/
inductive Keeps (k : Nat) : Prop
  | nothing (hUnasked : ∀ j < k, ¬history.Calls j)
      (hStale : (history.host k).kernel.memo.Stale (history.clock k))
  | settings {j : Nat} (hLatest : history.Latest j k) (hOrder : history.clock j ≤ history.clock k)
      (hSlot : (history.host k).kernel.memo.slot =
        some ⟨(Settings.loaded (history.vars j)).retention, some (history.clock j + 60000)⟩)

theorem ttl_eq (k : Nat) : (history.host k).kernel.memo.ttl = some 60000 := by
  induction k with
  | zero => exact history.minute
  | succ k ih =>
      by_cases hReads : history.Reads k
      · rw [(answer_of_reads hReads).2.2]
        exact ih
      · rw [(quiet_of_not_reads hReads).1, ih]

variable {history}

theorem Keeps.succ_of_not_reads (hKeeps : history.Keeps k) (hQuiet : ¬history.Reads k) :
    history.Keeps (k + 1) := by
  obtain ⟨hMemo, hOrder⟩ := quiet_of_not_reads hQuiet
  cases hKeeps with
  | nothing hUnasked hStale =>
      refine .nothing (fun j hBefore => ?_) (hMemo ▸ hStale.mono hOrder)
      rcases Nat.lt_succ_iff_lt_or_eq.mp hBefore with hLt | rfl
      · exact hUnasked j hLt
      · exact fun hCalls => hQuiet (reads_iff.mpr ⟨hCalls, hStale⟩)
  | settings hLatest hBefore hSlot =>
      exact .settings (hLatest.succ hQuiet) (Nat.le_trans hBefore hOrder) (hMemo ▸ hSlot)

theorem Reads.keeps (hReads : history.Reads k) : history.Keeps (k + 1) := by
  obtain ⟨-, hClock, hMemo⟩ := answer_of_reads hReads
  refine .settings hReads.latest (Nat.le_of_eq hClock.symm) ?_
  rw [hMemo, publish, history.ttl_eq]
  rfl

theorem keeps (history : History α) (k : Nat) : history.Keeps k := by
  induction k with
  | zero => exact .nothing (fun j hBefore => absurd hBefore (Nat.not_lt_zero j)) history.expired
  | succ k ih =>
      -- A moment reads the settings anew or leaves what is kept.
      by_cases hReads : history.Reads k
      · exact hReads.keeps
      · exact ih.succ_of_not_reads hReads

theorem Latest.unique {i : Nat} (hFirst : history.Latest i k) (hSecond : history.Latest j k) :
    i = j := by
  rcases Nat.lt_trichotomy i j with hLt | hSame | hLt
  · exact absurd hSecond.reads (hFirst.quiet j hLt hSecond.before)
  · exact hSame
  · exact absurd hFirst.reads (hSecond.quiet i hLt hFirst.before)

/-- Whoever asks is answered what was read last, less than a minute ago. -/
theorem answer_of_calls (hCalls : history.Calls k) : ∃ j, history.Latest j (k + 1) ∧
    history.clock j ≤ history.clock k ∧ history.clock k < history.clock j + 60000 ∧
      history.answer k = .ok (Settings.loaded (history.vars j)).retention := by
  by_cases hReads : history.Reads k
  · exact ⟨k, hReads.latest, Nat.le_refl _, by omega, (answer_of_reads hReads).1⟩
  · obtain ⟨retention, hFresh, hAnswer, -⟩ := fresh_of_not_reads hCalls hReads
    cases history.keeps k with
    | nothing _ hStale => exact absurd hFresh (hStale.fresh?_ne_some _)
    | @settings j hLatest hOrder hSlot =>
        rw [fresh?, hSlot, Option.filter_some] at hFresh
        split at hFresh
        case isTrue hNow =>
          rw [hAnswer, ← Option.some.inj hFresh]
          exact ⟨j, hLatest.succ hReads, hOrder, isFresh_iff.mp hNow _ rfl, rfl⟩
        case isFalse => cases hFresh

/-- The settings are read at the first call, and at each that comes a minute or more after they were
last read. -/
theorem reads_iff_latest : history.Reads k ↔ history.Calls k ∧
    ((∀ j < k, ¬history.Calls j) ∨
      ∃ j, history.Latest j k ∧ history.clock j + 60000 ≤ history.clock k) := by
  refine reads_iff.trans (and_congr_right fun _ => ?_)
  cases history.keeps k with
  | nothing hUnasked hStale => exact iff_of_true hStale (.inl hUnasked)
  | @settings j hLatest hOrder hSlot =>
      rw [stale_iff_of_slot hSlot]
      constructor
      · exact fun hExpired => .inr ⟨j, hLatest, hExpired⟩
      · rintro (hUnasked | ⟨other, hOther, hExpired⟩)
        · exact absurd hLatest.reads.1 (hUnasked j hLatest.before)
        · rwa [hLatest.unique hOther]

theorem exists_made (hMake : history.deed k = .make) {ttl : Option Nat}
    (hAnswer : history.answer k = .ok ttl) {later : Nat} (hLater : k < later) :
    ∃ machine, (history.world later).memos[(history.world k).memos.length]? = some machine ∧
      machine.memo.ttl = ttl := by
  induction hLater with
  | refl =>
      rw [world, hMake, World.memos_make history.supply hAnswer, List.getElem?_concat_length]
      exact ⟨_, rfl, rfl⟩
  | step hBefore ih =>
      obtain ⟨machine, hMachine, rfl⟩ := ih
      exact World.ttl_act history.supply hMachine (history.deed _)

/-- The configured retention is never older than a minute. Whoever asks is answered what the settings
of a moment less than a minute ago say, and those are read at the first call and at each that comes a
minute or more after the last reading; between the readings nothing is touched. A value that was
unusable at the reading makes it the default one, where the number of workers is text. A memo keeps the
retention that was answered when it was made. -/
theorem bounded_staleness (history : History α) :
    (∀ k, history.Reads k ↔ history.Calls k ∧
      ((∀ j < k, ¬history.Calls j) ∨
        ∃ j, history.Latest j k ∧ history.clock j + 60000 ≤ history.clock k)) ∧
    (∀ k, history.Calls k → ¬history.Reads k → history.host (k + 1) = history.host k) ∧
    (∀ k, history.Calls k → ∃ j, history.Latest j (k + 1) ∧
      history.clock j ≤ history.clock k ∧ history.clock k < history.clock j + 60000 ∧
      ∃ settings, ((Settings.load (history.vars j)).on (history.host j)).1 = .ok settings ∧
        history.answer k = .ok settings.retention ∧
        (Unusable (history.vars j) → ¬Garbled (history.vars j) →
          settings.retention = some 300)) ∧
    ∀ k, history.deed k = .make → ∃ ttl, history.answer k = .ok ttl ∧ ∀ later, k < later →
      ∃ machine, (history.world later).memos[(history.world k).memos.length]? = some machine ∧
        machine.memo.ttl = ttl := by
  refine ⟨fun k => reads_iff_latest, fun k hCalls hFresh => ?_, fun k hCalls => ?_,
    fun k hMake => ?_⟩
  · obtain ⟨_, -, -, hHost⟩ := fresh_of_not_reads hCalls hFresh
    exact hHost
  · obtain ⟨j, hLatest, hOrder, hYoung, hAnswer⟩ := answer_of_calls hCalls
    exact ⟨j, hLatest, hOrder, hYoung, _, congrArg Prod.fst (Settings.load_on _ _), hAnswer,
      Unusable.retention_loaded⟩
  · obtain ⟨j, -, -, -, hAnswer⟩ := answer_of_calls (.inr hMake)
    exact ⟨_, hAnswer, fun later hLater => exists_made hMake hAnswer hLater⟩

/-- The retention is set and asked for. Then the number of workers is spoiled, a memo is made after
59.999 seconds, and a millisecond later somebody asks again. -/
def spoiled : History Nat where
  start :=
    { host := { kernel := DefaultRetention.start, clock := 0, journal := [] }
      horizon := 1000000
      memos := [] }
  minute := rfl
  expired := fresh?_eq_none_iff.mp rfl
  supply _ call := call
  deed k := ([.set "PROCVIEW_MEMOIZER_EXPIRATION" (some [0x31, 0x35, 0x30, 0x30]), .ask,
    .set "PROCVIEW_THREADS" (some [0x30]), .advance 59999, .make, .advance 1, .ask] : List Deed)[k]?.getD
      (.advance 0)

theorem bounded_staleness_spoiled :
    spoiled.Reads 1 ∧ ¬spoiled.Reads 4 ∧ spoiled.host 5 = spoiled.host 4 ∧
      spoiled.answer 4 = .ok (some 1500) ∧ spoiled.Reads 6 ∧ Unusable (spoiled.vars 6) ∧
      ¬Garbled (spoiled.vars 6) ∧ spoiled.answer 6 = .ok (some 300) ∧
      ∃ machine, (spoiled.world 7).memos[0]? = some machine ∧ machine.memo.ttl = some 1500 := by
  obtain ⟨hReads, hFresh, hAnswers, hMade⟩ := spoiled.bounded_staleness
  have hFirst : spoiled.Reads 1 := (hReads 1).mpr ⟨.inl rfl, .inl (by decide)⟩
  have hSecond : ¬spoiled.Reads 4 := by
    intro hRead
    rcases ((hReads 4).mp hRead).2 with hUnasked | ⟨j, hLatest, hLate⟩
    · exact hUnasked 1 (by decide) (.inl rfl)
    · have hClock : spoiled.clock 4 = 59999 := by decide
      omega
  have hQuiet : ∀ i, 1 < i → i < 6 → ¬spoiled.Reads i := by
    intro i hAfter hBefore hRead
    have hCalls : ∀ i < 6, 1 < i → spoiled.Calls i → i = 4 := by decide
    obtain rfl := hCalls i hBefore hAfter hRead.1
    exact hSecond hRead
  have hThird : spoiled.Reads 6 :=
    (hReads 6).mpr ⟨.inl rfl, .inr ⟨1, ⟨by decide, hFirst, hQuiet⟩, by decide⟩⟩
  have hValue : (spoiled.vars 6).lookup "PROCVIEW_THREADS" = some [0x30] := by rfl
  have hDecoded : Text.Utf8.decode? [0x30] = some ['0'] := by decide
  have hSpoiled : Unusable (spoiled.vars 6) := by
    refine .workers hValue fun text hText n hAsks => ?_
    obtain rfl := Option.some.inj (hDecoded.symm.trans hText)
    obtain ⟨hZero, hPos⟩ := Settings.asksWorkers_iff.mp hAsks
    have hNumber : Text.unsigned? UInt64.size (Text.trim ['0']) = some 0 := by decide
    rw [hNumber] at hZero
    exact absurd (Option.some.inj hZero) (Nat.ne_of_lt hPos)
  have hText : ¬Garbled (spoiled.vars 6) := by
    rintro ⟨value, hOther, hGarbled⟩
    obtain rfl := Option.some.inj (hValue.symm.trans hOther)
    cases hDecoded.symm.trans hGarbled
  obtain ⟨j, hLatest, -, -, settings, -, hAnswer, hDefault⟩ := hAnswers 6 (.inl rfl)
  obtain rfl := hLatest.unique hThird.latest
  obtain ⟨ttl, hTtl, hKept⟩ := hMade 4 rfl
  have hMake : spoiled.answer 4 = .ok (some 1500) := by rfl
  rw [hMake] at hTtl
  obtain rfl := Except.ok.inj hTtl
  exact ⟨hFirst, hSecond, hFresh 4 (.inr rfl) hSecond, hMake, hThird, hSpoiled, hText,
    hAnswer.trans (congrArg Except.ok (hDefault hSpoiled hText)), hKept 7 (by decide)⟩

/-- The retention is set, and the number of workers to a byte that is no text. Then somebody asks. -/
def garbled : History Nat where
  start :=
    { host := { kernel := DefaultRetention.start, clock := 0, journal := [] }
      horizon := 1000000
      memos := [] }
  minute := rfl
  expired := fresh?_eq_none_iff.mp rfl
  supply _ call := call
  deed k := ([.set "PROCVIEW_MEMOIZER_EXPIRATION" (some [0x31, 0x35, 0x30, 0x30]),
    .set "PROCVIEW_THREADS" (some [0xff]), .ask] : List Deed)[k]?.getD (.advance 0)

/-- Then it is not the default that is answered, though one value is unusable. -/
theorem answer_garbled :
    garbled.Reads 2 ∧ Unusable (garbled.vars 2) ∧ garbled.answer 2 = .ok (some 1500) := by
  have hCalls : garbled.Calls 2 := .inl rfl
  have hValue : (garbled.vars 2).lookup "PROCVIEW_THREADS" = some [0xff] := by rfl
  have hDecoded : Text.Utf8.decode? [0xff] = none := by decide
  refine ⟨reads_iff_latest.mpr ⟨hCalls, .inl (by decide)⟩, .workers hValue fun text hText => ?_,
    by rfl⟩
  cases hDecoded.symm.trans hText

end History

end ProcessCensus.DefaultRetention
