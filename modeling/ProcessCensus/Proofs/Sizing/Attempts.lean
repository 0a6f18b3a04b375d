import ProcessCensus.Proofs.Run
import ProcessCensus.Sizing.Basic
import Mathlib.Data.List.Basic

/-!
What comes of asking for a size and then for the answer, when the table that is asked for may be
another one at each call and each call may fail. Main statement: the first attempt whose buffer is not
filled to the last element tells the whole table, a failure ends the attempts at once, and after three
full buffers the last one is told as it is, with a notice. All this presumes that the buffers can be
had: a size for which there is none breaks the attempts off.
-/

namespace ProcessCensus.Sizing

/-- A question about a table. -/
inductive Question where
  /-- How many rows there are. -/
  | size
  /-- The rows themselves, in a buffer of some capacity. -/
  | content (capacity : Nat)
deriving DecidableEq

/-- A table of which nothing is certain from one call to the next: what each size probe and each fetch
comes to, both counted from 0. -/
structure Shifting (α : Type) where
  count : Nat → Except Failure Nat
  rows : Nat → Except Failure (List α)

/-- The questions of attempts with these capacities. -/
def rounds (capacities : List Nat) : List Question :=
  capacities.flatMap fun capacity => [.size, .content capacity]

@[simp] theorem rounds_append (first second : List Nat) :
    rounds (first ++ second) = rounds first ++ rounds second :=
  List.flatMap_append

theorem countP_size_rounds (capacities : List Nat) :
    (rounds capacities).countP (· = .size) = capacities.length := by
  induction capacities with
  | nil => rfl
  | cons capacity rest ih => simpa [rounds] using ih

theorem countP_content_rounds (capacities : List Nat) :
    (rounds capacities).countP (· ≠ .size) = capacities.length := by
  induction capacities with
  | nil => rfl
  | cons capacity rest ih => simpa [rounds] using ih

/-- The buffer for a table that can be told whole is larger than the table. -/
theorem lt_capacityFor {count : Nat} (hCount : count < maxCount) : count < capacityFor count := by
  have hMost : 16 ≤ maxCount := by decide
  simp only [capacityFor]
  omega

namespace Shifting

variable {α : Type} (table : Shifting α)

/-- A size probe, where the system keeps account of what it was asked. -/
def probe : Attempt (List Question) Nat :=
  Attempt.call fun asked => (table.count (asked.countP (· = .size)), asked ++ [.size])

/-- A fetch. It writes the rows for which there is room, and reports how many there are. -/
def fetch (capacity : Nat) : Attempt (List Question) (Filled α) :=
  Attempt.call fun asked =>
    ((table.rows (asked.countP (· ≠ .size))).map fun rows => ⟨rows.take capacity, rows.length⟩,
      asked ++ [.content capacity])

/-- The attempts to read the table. -/
def read (what : String) (width : Nat) (blank : α) : Attempt (List Question) (List α) :=
  Buffer.toList <$> probeThenFetch what width blank table.probe table.fetch

/-- A buffer for so many elements of `width` bytes has no more bytes than a machine can address. -/
def Fits (width count : Nat) : Prop :=
  width * capacityFor count ≤ 9223372036854775807

instance (width count : Nat) : Decidable (Fits width count) :=
  Nat.decLe _ _

/-- The `k`-th attempt has a buffer of this capacity, and the table fills it. -/
def Fills (k capacity : Nat) : Prop :=
  ∃ count rows, table.count k = .ok count ∧ table.rows k = .ok rows ∧
    capacity = capacityFor count ∧ capacity ≤ rows.length

/-- How the `k`-th attempt can be the last one: the questions asked in it, the notices written, and the
result. -/
inductive Ends (what : String) (width k : Nat) :
    List Question → List Notice → Except Abort (Except Failure (List α)) → Prop where
  /-- The size probe fails. -/
  | unsized {failure : Failure} (hCount : table.count k = .error failure) :
      Ends what width k [.size] [] (.ok (.error failure))
  /-- There is no buffer of that size, so nothing is fetched. -/
  | oversized {count : Nat} (hCount : table.count k = .ok count) (hSize : ¬Fits width count) :
      Ends what width k [.size] [] (.error .capacityOverflow)
  /-- The fetch fails. -/
  | unread {count : Nat} {failure : Failure} (hCount : table.count k = .ok count)
      (hRows : table.rows k = .error failure) :
      Ends what width k [.size, .content (capacityFor count)] [] (.ok (.error failure))
  /-- There is room left behind the rows. -/
  | whole {count : Nat} {rows : List α} (hCount : table.count k = .ok count)
      (hRows : table.rows k = .ok rows) (hRoom : rows.length < capacityFor count) :
      Ends what width k [.size, .content (capacityFor count)] [] (.ok (.ok rows))
  /-- There is none, and no further attempt is made. -/
  | cut {count : Nat} {rows : List α} (hCount : table.count k = .ok count)
      (hRows : table.rows k = .ok rows) (hFull : capacityFor count ≤ rows.length)
      (hLast : k + 1 = 3) :
      Ends what width k [.size, .content (capacityFor count)]
        [.bufferKept what 3 (capacityFor count)] (.ok (.ok (rows.take (capacityFor count))))

/-- A system that has been asked these questions. -/
def host (asked : List Question) (clock : Int) (journal : List Notice) : Host (List Question) :=
  { kernel := asked, clock, journal }

variable {table}

theorem probe_on (capacities : List Nat) (clock : Int) (journal : List Notice) :
    table.probe.outcome.on (host (rounds capacities) clock journal) =
      (.ok (table.count capacities.length),
        host (rounds capacities ++ [Question.size]) clock journal) := by
  rw [probe, Attempt.outcome_call, Run.on_call, host, countP_size_rounds]
  rfl

theorem fetch_on (capacities : List Nat) (capacity : Nat) (clock : Int) (journal : List Notice) :
    (table.fetch capacity).outcome.on (host (rounds capacities ++ [Question.size]) clock journal) =
      (.ok ((table.rows capacities.length).map fun rows => ⟨rows.take capacity, rows.length⟩),
        host (rounds (capacities ++ [capacity])) clock journal) := by
  have hFetched : (rounds capacities ++ [Question.size]).countP (· ≠ .size) = capacities.length := by
    rw [List.countP_append, countP_content_rounds]
    rfl
  rw [fetch, Attempt.outcome_call, Run.on_call, host, hFetched]
  simp [rounds, host]

theorem reserve_of_fits {κ : Type} {width count : Nat} (hFits : Fits width count) :
    (reserve width (capacityFor count) : Attempt κ Unit) = pure () :=
  if_pos hFits

theorem reserve_of_not_fits {κ : Type} {width count : Nat} (hSize : ¬Fits width count) :
    (reserve width (capacityFor count) : Attempt κ Unit) =
      Attempt.lift (throw .capacityOverflow) :=
  if_neg hSize

/-- An attempt whose size probe succeeded. -/
theorem attemptFrom_on (what : String) (width : Nat) (blank : α) (capacities : List Nat)
    (attempt more : Nat) {count : Nat} (hCount : table.count capacities.length = .ok count)
    (clock : Int) (journal : List Notice) :
    (attemptFrom what width blank table.probe table.fetch attempt (more + 1)).outcome.on
        (host (rounds capacities) clock journal) =
      (do
        reserve width (capacityFor count)
        let filled ← table.fetch (capacityFor count)
        if filled.reported < capacityFor count then
          return .ofWritten blank filled.written filled.reported
        else if more = 0 then
          Attempt.note (.bufferKept what attempt (capacityFor count))
          return .ofWritten blank filled.written (capacityFor count)
        else
          Attempt.note (.bufferFilled what (capacityFor count))
          attemptFrom what width blank table.probe table.fetch (attempt + 1) more :
        Attempt (List Question) (Buffer α)).outcome.on
        (host (rounds capacities ++ [.size]) clock journal) := by
  have hProbe := table.probe_on capacities clock journal
  rw [hCount] at hProbe
  rw [attemptFrom, Attempt.on_bind_of_eq hProbe]

/-- One attempt either is the last one, or it has filled its buffer and the next one follows. -/
theorem attemptFrom_step (what : String) (width : Nat) (blank : α) (capacities : List Nat)
    (clock : Int) (journal : List Notice) {more : Nat} (hMore : capacities.length + (more + 1) = 3) :
    let attempt := (attemptFrom what width blank table.probe table.fetch (capacities.length + 1)
      (more + 1)).outcome.on (host (rounds capacities) clock journal)
    (∃ questions notices outcome,
      attempt = (outcome, host (rounds capacities ++ questions) clock (notices ++ journal)) ∧
      table.Ends what width capacities.length questions notices
        ((Buffer.toList <$> ·) <$> outcome)) ∨
    ∃ capacity, more ≠ 0 ∧ table.Fills capacities.length capacity ∧
      attempt = (attemptFrom what width blank table.probe table.fetch (capacities.length + 1 + 1)
        more).outcome.on (host (rounds (capacities ++ [capacity])) clock
          (.bufferFilled what capacity :: journal)) := by
  intro attempt
  cases hCount : table.count capacities.length with
  | error failure =>
      have hProbe := table.probe_on capacities clock journal
      rw [hCount] at hProbe
      exact .inl ⟨[.size], [], .ok (.error failure), Attempt.on_bind_of_failure hProbe _,
        .unsized hCount⟩
  | ok count =>
      have hAttempt : attempt = _ :=
        attemptFrom_on what width blank capacities _ more hCount clock journal
      by_cases hFits : Fits width count
      case neg =>
        rw [reserve_of_not_fits hFits] at hAttempt
        exact .inl ⟨[.size], [], .error .capacityOverflow, hAttempt, .oversized hCount hFits⟩
      rw [reserve_of_fits hFits, pure_bind] at hAttempt
      have hFetch := table.fetch_on capacities (capacityFor count) clock journal
      cases hRows : table.rows capacities.length with
      | error failure =>
          rw [hRows, rounds_append] at hFetch
          exact .inl ⟨_, [], .ok (.error failure),
            hAttempt.trans (Attempt.on_bind_of_failure hFetch _), .unread hCount hRows⟩
      | ok rows =>
          rw [hRows, Except.map] at hFetch
          rw [Attempt.on_bind_of_eq hFetch] at hAttempt
          dsimp only at hAttempt
          -- what was written is never shorter than the buffer told, so no blank element is left in it
          by_cases hRoom : rows.length < capacityFor count
          · rw [if_pos hRoom, List.take_of_length_le (Nat.le_of_lt hRoom), rounds_append] at hAttempt
            have hWhole : (Buffer.toList <$> ·) <$>
                (.ok (.ok (.ofWritten blank rows rows.length)) :
                  Except Abort (Except Failure (Buffer α))) = .ok (.ok rows) :=
              congrArg (Except.ok <| Except.ok ·) (Buffer.toList_ofWritten blank rfl)
            exact .inl ⟨_, [], _, hAttempt, hWhole ▸ .whole hCount hRows hRoom⟩
          have hFull : capacityFor count ≤ rows.length := Nat.not_lt.mp hRoom
          by_cases hLast : more = 0
          · subst hLast
            rw [if_neg hRoom, if_pos rfl, rounds_append, hMore] at hAttempt
            have hCut : (Buffer.toList <$> ·) <$>
                (.ok (.ok (.ofWritten blank (rows.take (capacityFor count)) (capacityFor count))) :
                  Except Abort (Except Failure (Buffer α))) =
                .ok (.ok (rows.take (capacityFor count))) :=
              congrArg (Except.ok <| Except.ok ·)
                (Buffer.toList_ofWritten blank (List.length_take_of_le hFull))
            exact .inl ⟨_, [_], _, hAttempt, hCut ▸ .cut hCount hRows hFull hMore⟩
          · rw [if_neg hRoom, if_neg hLast] at hAttempt
            refine .inr ⟨capacityFor count, hLast, ⟨count, rows, hCount, hRows, rfl, hFull⟩, ?_⟩
            exact hAttempt.trans (Attempt.on_bind_of_eq rfl _)

/-- A run of attempts: as long as an attempt fills its buffer and may be followed, the next one is
made. -/
theorem attemptFrom_run (what : String) (width : Nat) (blank : α) (clock : Int) {more : Nat} :
    ∀ (capacities : List Nat) (journal : List Notice), capacities.length + (more + 1) = 3 →
      ∃ later questions notices outcome,
        (attemptFrom what width blank table.probe table.fetch (capacities.length + 1)
            (more + 1)).outcome.on (host (rounds capacities) clock journal) =
          (outcome, host (rounds (capacities ++ later) ++ questions) clock
            (notices ++ (later.map (.bufferFilled what)).reverse ++ journal)) ∧
        later.length ≤ more ∧
        (∀ i capacity, later[i]? = some capacity →
          table.Fills (capacities.length + i) capacity) ∧
        table.Ends what width (capacities.length + later.length) questions notices
          ((Buffer.toList <$> ·) <$> outcome) := by
  induction more with
  | zero =>
      intro capacities journal hMore
      obtain ⟨questions, notices, outcome, hAttempt, hEnds⟩ | ⟨_, hZero, -⟩ :=
        table.attemptFrom_step what width blank capacities clock journal hMore
      · exact ⟨[], questions, notices, outcome, by simpa using hAttempt, Nat.le_refl 0,
          by simp, hEnds⟩
      · exact absurd rfl hZero
  | succ more ih =>
      intro capacities journal hMore
      obtain ⟨questions, notices, outcome, hAttempt, hEnds⟩ | ⟨capacity, -, hFills, hAttempt⟩ :=
        table.attemptFrom_step what width blank capacities clock journal hMore
      · exact ⟨[], questions, notices, outcome, by simpa using hAttempt, Nat.zero_le _,
          by simp, hEnds⟩
      · obtain ⟨later, questions, notices, outcome, hLater, hLength, hFilled, hEnds⟩ :=
          ih (capacities ++ [capacity]) (.bufferFilled what capacity :: journal)
            (by simp only [List.length_append, List.length_singleton]; omega)
        refine ⟨capacity :: later, questions, notices, outcome, ?_, Nat.succ_le_succ hLength, ?_, ?_⟩
        · rw [hAttempt]
          simpa using hLater
        · intro i wide hWide
          cases i with
          | zero =>
              obtain rfl : capacity = wide := by simpa using hWide
              exact hFills
          | succ i =>
              have hLater : later[i]? = some wide := by simpa using hWide
              simpa [Nat.add_right_comm, Nat.add_assoc] using hFilled i wide hLater
        · simpa [Nat.add_right_comm, Nat.add_assoc] using hEnds

/-- Where there is a buffer for every size, the attempts are not broken off. -/
theorem Ends.exists_ok {what : String} {width k : Nat} {questions : List Question}
    {notices : List Notice} {outcome : Except Abort (Except Failure (List α))}
    (hEnds : table.Ends what width k questions notices outcome)
    (hFits : ∀ count, table.count k = .ok count → Fits width count) :
    ∃ answer, outcome = .ok answer := by
  cases hEnds with
  | oversized hCount hSize => exact absurd (hFits _ hCount) hSize
  | unsized | unread | whole | cut => exact ⟨_, rfl⟩

/-- There is no buffer of the largest size. -/
theorem Fits.lt_maxCount {width count : Nat} (hFits : Fits width count) (hWidth : 0 < width) :
    count < maxCount := by
  have hMost : maxCount = 18446744073709551615 := by decide
  have hBytes : capacityFor count ≤ 9223372036854775807 :=
    Nat.le_trans (Nat.le_mul_of_pos_left _ hWidth) hFits
  simp only [capacityFor] at hBytes
  omega

/-- A table that has not grown since its size was asked for does not fill the buffer. -/
theorem ends_of_not_grown {what : String} {width : Nat} {capacities : List Nat}
    {questions : List Question} {notices : List Notice}
    {outcome : Except Abort (Except Failure (List α))} {count : Nat} {rows : List α}
    (hFills : ∀ k capacity, capacities[k]? = some capacity → table.Fills k capacity)
    (hEnds : table.Ends what width capacities.length questions notices outcome)
    (hWidth : 0 < width) (hFits : Fits width count)
    (hCount : table.count 0 = .ok count) (hRows : table.rows 0 = .ok rows)
    (hGrown : rows.length ≤ count) : capacities = [] ∧ outcome = .ok (.ok rows) := by
  have hRoom : rows.length < capacityFor count :=
    Nat.lt_of_le_of_lt hGrown (lt_capacityFor (hFits.lt_maxCount hWidth))
  cases capacities with
  | cons capacity rest =>
      obtain ⟨count', rows', hCount', hRows', rfl, hFull⟩ := hFills 0 capacity rfl
      obtain rfl : count = count' := Except.ok.inj (hCount.symm.trans hCount')
      obtain rfl : rows = rows' := Except.ok.inj (hRows.symm.trans hRows')
      omega
  | nil =>
      refine ⟨rfl, ?_⟩
      cases hEnds with
      | unsized hCount' => cases hCount.symm.trans hCount'
      | oversized hCount' hSize =>
          obtain rfl : count = _ := Except.ok.inj (hCount.symm.trans hCount')
          exact absurd hFits hSize
      | unread hCount' hRows' => cases hRows.symm.trans hRows'
      | whole hCount' hRows' => exact congrArg Except.ok (hRows'.symm.trans hRows)
      | cut hCount' hRows' hFull =>
          obtain rfl : count = _ := Except.ok.inj (hCount.symm.trans hCount')
          obtain rfl : rows = _ := Except.ok.inj (hRows.symm.trans hRows')
          omega

/-- The attempts always come to an end, and never cut an answer short unseen. Every attempt but the
last has filled its buffer, and how the last one ends is the whole result: the failure of a call, the
whole table that this attempt met, or, after the third full buffer, the rows that fill it. They are
broken off only by a size for which there is no buffer. The buffer is larger than the size told, so a
table that has not grown in between is read at once. -/
theorem read_ends (table : Shifting α) (what : String) (width : Nat) (blank : α) (clock : Int)
    (journal : List Notice) :
    (∀ count, capacityFor count = max 16 (min 18446744073709551615 (count + count / 8)) ∧
      (count < 18446744073709551615 → count < capacityFor count)) ∧
    ∃ capacities questions notices outcome,
      (table.read what width blank).outcome.on (host [] clock journal) =
        (outcome, host (rounds capacities ++ questions) clock
          (notices ++ (capacities.map (.bufferFilled what)).reverse ++ journal)) ∧
      capacities.length < 3 ∧
      (∀ k capacity, capacities[k]? = some capacity → table.Fills k capacity) ∧
      table.Ends what width capacities.length questions notices outcome ∧
      ((∀ k count, table.count k = .ok count → Fits width count) →
        (∃ answer, outcome = .ok answer) ∧
        (0 < width → ∀ count rows, table.count 0 = .ok count → table.rows 0 = .ok rows →
          rows.length ≤ count → capacities = [] ∧ outcome = .ok (.ok rows))) := by
  refine ⟨fun count => ⟨rfl, lt_capacityFor⟩, ?_⟩
  obtain ⟨capacities, questions, notices, outcome, hRun, hLength, hFills, hEnds⟩ :=
    table.attemptFrom_run what width blank clock [] journal
      (rfl : ([] : List Nat).length + (2 + 1) = 3)
  simp only [List.nil_append, List.length_nil, Nat.zero_add] at hRun hFills hEnds
  refine ⟨capacities, questions, notices, (Buffer.toList <$> ·) <$> outcome, ?_,
    Nat.lt_succ_of_le hLength, hFills, hEnds, fun hFits => ⟨hEnds.exists_ok (hFits _), ?_⟩⟩
  · rw [read, Attempt.outcome_map, Run.on_map]
    exact congrArg (Prod.map (Functor.map (Functor.map Buffer.toList)) id) hRun
  · intro hWidth count rows hCount hRows
    exact ends_of_not_grown hFills hEnds hWidth (hFits 0 count hCount) hCount hRows

/-- It tells of no rows, and then has seventeen of them, which are other ones each time. -/
def elusive : Shifting Nat where
  count _ := .ok 0
  rows k := .ok ((List.range 17).map (100 * k + ·))

/-- Three buffers are filled, and the sixteen rows in the last one are told. -/
theorem read_ends_elusive :
    (∀ k count, elusive.count k = .ok count → Fits 4 count) ∧
    ∃ capacities questions notices outcome,
      (elusive.read "pids" 4 0).outcome.on (host [] 0 []) =
        (outcome, host (rounds capacities ++ questions) 0
          (notices ++ (capacities.map (.bufferFilled "pids")).reverse ++ [])) ∧
      capacities = [16, 16] ∧ questions = [.size, .content 16] ∧
      notices = [.bufferKept "pids" 3 16] ∧
      outcome = .ok (.ok ((List.range 16).map (200 + ·))) := by
  have hFits : ∀ k count, elusive.count k = .ok count → Fits 4 count := by
    rintro k count ⟨⟩
    decide
  obtain ⟨-, capacities, questions, notices, outcome, hRun, -, hFills, hEnds, hRest⟩ :=
    read_ends elusive "pids" 4 0 0 []
  obtain ⟨answer, rfl⟩ := (hRest hFits).1
  cases hEnds with
  | unsized hCount => cases hCount
  | unread hCount hRows => cases hRows
  | whole hCount hRows hRoom =>
      cases hCount
      cases hRows
      exact absurd hRoom (by rw [List.length_map, List.length_range]; decide)
  | cut hCount hRows hFull hLast =>
      obtain ⟨first, second, rfl⟩ := List.length_eq_two.mp (Nat.succ.inj hLast)
      obtain ⟨_, _, ⟨⟩, -, rfl, -⟩ := hFills 0 _ rfl
      obtain ⟨_, _, ⟨⟩, -, rfl, -⟩ := hFills 1 _ rfl
      cases hCount
      cases hRows
      exact ⟨hFits, _, _, _, _, hRun, rfl, rfl, rfl, rfl⟩

end Shifting

end ProcessCensus.Sizing
