import ProcessCensus.Proofs.Run
import ProcessCensus.Proofs.Text.Grammar
import ProcessCensus.Settings
import Mathlib.Algebra.Order.Ring.Int
import Mathlib.Algebra.Order.Ring.Nat

/-!
The values that settings are read from. Each variable that is set has to be a numeral within bounds,
with white space around it at most; the first one that is not is blamed, and then no setting counts.
-/

namespace ProcessCensus.Settings

open Text

/-- The value asks to keep what is memoized for so long: a number of milliseconds, of which a negative
one means for good. -/
inductive AsksRetention : List Char → Option Nat → Prop
  | forGood {value numeral : List Char} {milliseconds : Int} (hPadded : Padded value numeral)
      (hNumeral : Signed numeral milliseconds) (hLow : -2 ^ 63 ≤ milliseconds)
      (hNegative : milliseconds < 0) : AsksRetention value none
  | limited {value numeral : List Char} {milliseconds : Nat} (hPadded : Padded value numeral)
      (hNumeral : Signed numeral milliseconds) (hHigh : milliseconds < 2 ^ 63) :
      AsksRetention value (some milliseconds)

/-- The value asks for so many workers, one at least. -/
def AsksWorkers (value : List Char) (n : Nat) : Prop :=
  ∃ numeral, Padded value numeral ∧ Unsigned numeral n ∧ 1 ≤ n ∧ n ≤ 2 ^ 64 - 1

/-- Each variable asks for what is set, and what no variable asks for has its default. -/
structure Asked (lookup : String → Option String) (settings : Settings) : Prop where
  retention : (lookup "PROCVIEW_MEMOIZER_EXPIRATION").elim (settings.retention = some 300)
    fun value => AsksRetention value.toList settings.retention
  workers : (lookup "PROCVIEW_THREADS").elim (settings.workers = none)
    fun value => ∃ n, settings.workers = some n ∧ AsksWorkers value.toList n

/-- The variable that is at fault, with its value as it stands. Where both are, it is the one of the
retention. -/
inductive Blames (lookup : String → Option String) : Failure → Prop
  | retention {value : String} (hValue : lookup "PROCVIEW_MEMOIZER_EXPIRATION" = some value)
      (hBad : ∀ retention, ¬AsksRetention value.toList retention) :
      Blames lookup (.setting "PROCVIEW_MEMOIZER_EXPIRATION" value)
  | workers {value : String}
      (hGood : ∀ other ∈ lookup "PROCVIEW_MEMOIZER_EXPIRATION",
        ∃ retention, AsksRetention other.toList retention)
      (hValue : lookup "PROCVIEW_THREADS" = some value)
      (hBad : ∀ n, ¬AsksWorkers value.toList n) : Blames lookup (.setting "PROCVIEW_THREADS" value)

variable {value : String} {retention : Option Nat} {lookup : String → Option String}

theorem asksRetention_iff {text : List Char} : AsksRetention text retention ↔
    ∃ milliseconds, signed? Int64.size (trim text) = some milliseconds ∧
      retentionOf milliseconds = retention := by
  have hHalf : ((Int64.size / 2 : Nat) : Int) = 2 ^ 63 := by decide
  simp only [signed?_trim_eq_some_iff (show 1 < Int64.size by decide), hHalf, retentionOf]
  constructor
  · intro hAsks
    cases hAsks with
    | forGood hPadded hNumeral hLow hNegative =>
        exact ⟨_, ⟨_, hPadded, hNumeral, hLow, by omega⟩, if_pos hNegative⟩
    | limited hPadded hNumeral hHigh =>
        exact ⟨_, ⟨_, hPadded, hNumeral, by omega, by omega⟩, if_neg (by omega)⟩
  · rintro ⟨milliseconds, ⟨numeral, hPadded, hNumeral, hLow, hHigh⟩, rfl⟩
    split
    case isTrue hNegative => exact .forGood hPadded hNumeral hLow hNegative
    case isFalse hNonneg =>
      obtain ⟨n, rfl⟩ := Int.eq_ofNat_of_zero_le (Int.not_lt.mp hNonneg)
      exact .limited hPadded hNumeral (by omega)

theorem parseRetention_eq_ok_iff :
    parseRetention value = .ok retention ↔ AsksRetention value.toList retention := by
  rw [asksRetention_iff, parseRetention]
  cases signed? Int64.size (trim value.toList) with
  | none => simp
  | some milliseconds => simp

example : parseRetention " -0\n" = .ok (some 0) := by rfl

theorem parseRetention_cases (value : String) : (∃ retention, parseRetention value = .ok retention) ∨
    parseRetention value = .error (.setting retentionKey value) := by
  rw [parseRetention]
  split
  · exact .inl ⟨_, rfl⟩
  · exact .inr rfl

theorem AsksWorkers.pos {text : List Char} {n : Nat} : AsksWorkers text n → 0 < n :=
  fun ⟨_, _, _, hSome, _⟩ => hSome

theorem asksWorkers_iff {text : List Char} {n : Nat} :
    AsksWorkers text n ↔ unsigned? UInt64.size (trim text) = some n ∧ 0 < n := by
  have hSize : UInt64.size = 2 ^ 64 := by decide
  simp only [unsigned?_trim_eq_some_iff, hSize]
  constructor
  · rintro ⟨numeral, hPadded, hNumeral, hSome, hHigh⟩
    exact ⟨⟨numeral, hPadded, hNumeral, by omega⟩, hSome⟩
  · rintro ⟨⟨numeral, hPadded, hNumeral, hHigh⟩, hSome⟩
    exact ⟨numeral, hPadded, hNumeral, hSome, by omega⟩

theorem parseWorkers_eq_ok_iff {n : { n : Nat // 0 < n }} :
    parseWorkers value = .ok n ↔ AsksWorkers value.toList n := by
  obtain ⟨n, hPos⟩ := n
  rw [asksWorkers_iff, parseWorkers]
  cases unsigned? UInt64.size (trim value.toList) with
  | none => simp
  | some other =>
      simp only [Option.some.injEq]
      split
      case isTrue => simp [hPos]
      case isFalse hZero =>
        refine iff_of_false (fun hOk => by cases hOk) ?_
        rintro ⟨rfl, -⟩
        exact hZero hPos

theorem parseWorkers_cases (value : String) : (∃ n, parseWorkers value = .ok n) ∨
    parseWorkers value = .error (.setting workersKey value) := by
  rw [parseWorkers]
  split
  · split
    · exact .inl ⟨_, rfl⟩
    · exact .inr rfl
  · exact .inr rfl

/-- What is read from a variable, or the default if it is not set. -/
def readOr {α : Type} (parse : String → Except Failure α) (fallback : α) :
    Option String → Except Failure α
  | some value => parse value
  | none => .ok fallback

/-- The variables are read one after the other. -/
theorem ofLookup_eq (lookup : String → Option String) : ofLookup lookup = do
    let retention ← readOr parseRetention (some 300) (lookup retentionKey)
    let workers ← readOr (some <$> parseWorkers ·) none (lookup workersKey)
    return { retention, workers } := by
  rw [ofLookup]
  cases lookup retentionKey <;> cases lookup workersKey <;> rfl

theorem asked_iff {settings : Settings} : Asked lookup settings ↔
    readOr parseRetention (some 300) (lookup retentionKey) = .ok settings.retention ∧
      readOr (some <$> parseWorkers ·) none (lookup workersKey) = .ok settings.workers := by
  have hRetention : (lookup retentionKey).elim (settings.retention = some 300)
      (fun value => AsksRetention value.toList settings.retention) ↔
        readOr parseRetention (some 300) (lookup retentionKey) = .ok settings.retention := by
    cases lookup retentionKey with
    | none => exact eq_comm.trans (Except.ok.injEq _ _).symm.to_iff
    | some value => exact parseRetention_eq_ok_iff.symm
  have hWorkers : (lookup workersKey).elim (settings.workers = none)
      (fun value => ∃ n, settings.workers = some n ∧ AsksWorkers value.toList n) ↔
        readOr (some <$> parseWorkers ·) none (lookup workersKey) = .ok settings.workers := by
    cases lookup workersKey with
    | none => exact eq_comm.trans (Except.ok.injEq _ _).symm.to_iff
    | some value =>
        simp only [Option.elim_some, readOr, ← parseWorkers_eq_ok_iff]
        cases parseWorkers value with
        | error failure => simp
        | ok n => simp [eq_comm]
  rw [← hRetention, ← hWorkers]
  exact ⟨fun ⟨hFirst, hSecond⟩ => ⟨hFirst, hSecond⟩, fun ⟨hFirst, hSecond⟩ => ⟨hFirst, hSecond⟩⟩

/-- What two readings one after the other come to. -/
theorem bind_eq_ok_iff {ε α β : Type} {first : Except ε α} {next : α → Except ε β} {value : β} :
    first >>= next = .ok value ↔ ∃ middle, first = .ok middle ∧ next middle = .ok value := by
  cases first <;> simp [bind, Except.bind]

theorem bind_eq_error_iff {ε α β : Type} {first : Except ε α} {next : α → Except ε β} {failure : ε} :
    first >>= next = .error failure ↔
      first = .error failure ∨ ∃ middle, first = .ok middle ∧ next middle = .error failure := by
  cases first <;> simp [bind, Except.bind]

theorem ofLookup_eq_ok_iff {settings : Settings} :
    ofLookup lookup = .ok settings ↔ Asked lookup settings := by
  rw [asked_iff, ofLookup_eq, bind_eq_ok_iff]
  simp only [bind_eq_ok_iff]
  constructor
  · rintro ⟨retention, hRetention, workers, hWorkers, hSettings⟩
    obtain rfl := Except.ok.inj hSettings
    exact ⟨hRetention, hWorkers⟩
  · exact fun ⟨hRetention, hWorkers⟩ => ⟨_, hRetention, _, hWorkers, rfl⟩

theorem readOr_eq_error_iff {α : Type} {parse : String → Except Failure α} {fallback : α}
    {setting : Option String} {failure : Failure} : readOr parse fallback setting = .error failure ↔
      ∃ value, setting = some value ∧ parse value = .error failure := by
  cases setting with
  | none => simp [readOr]
  | some value => simp [readOr]

theorem exists_readRetention_iff : (∃ retention,
    readOr parseRetention (some 300) (lookup retentionKey) = .ok retention) ↔
      ∀ value ∈ lookup retentionKey, ∃ retention, AsksRetention value.toList retention := by
  cases lookup retentionKey with
  | none => simp [readOr]
  | some value => simp [readOr, parseRetention_eq_ok_iff]

theorem parseRetention_eq_error_iff {failure : Failure} : parseRetention value = .error failure ↔
    failure = .setting retentionKey value ∧ ∀ retention, ¬AsksRetention value.toList retention := by
  simp only [eq_error_iff_of_cases (parseRetention_cases value), ne_eq, parseRetention_eq_ok_iff]

theorem parseWorkers_eq_error_iff {failure : Failure} : parseWorkers value = .error failure ↔
    failure = .setting workersKey value ∧ ∀ n, ¬AsksWorkers value.toList n := by
  simp only [eq_error_iff_of_cases (parseWorkers_cases value), ne_eq, parseWorkers_eq_ok_iff]
  refine and_congr_right fun _ => ⟨fun hNone n hAsks => ?_, fun hNone n => hNone n⟩
  exact hNone ⟨n, hAsks.pos⟩ hAsks

theorem ofLookup_eq_error_iff {failure : Failure} :
    ofLookup lookup = .error failure ↔ Blames lookup failure := by
  have hWorkers : ∀ other : String, some <$> parseWorkers other = .error failure ↔
      parseWorkers other = .error failure := by
    intro other
    cases parseWorkers other <;> simp
  rw [ofLookup_eq, bind_eq_error_iff, readOr_eq_error_iff]
  simp only [bind_eq_error_iff, readOr_eq_error_iff, hWorkers, parseRetention_eq_error_iff,
    parseWorkers_eq_error_iff]
  constructor
  · rintro (⟨value, hValue, rfl, hBad⟩ | ⟨retention, hRetention, ⟨value, hValue, rfl, hBad⟩ | ⟨_, _, hOk⟩⟩)
    · exact .retention hValue hBad
    · exact .workers (exists_readRetention_iff.mp ⟨retention, hRetention⟩) hValue hBad
    · cases hOk
  · intro hBlames
    cases hBlames with
    | retention hValue hBad => exact .inl ⟨_, hValue, rfl, hBad⟩
    | workers hGood hValue hBad =>
        obtain ⟨retention, hRetention⟩ := exists_readRetention_iff.mpr hGood
        exact .inr ⟨retention, hRetention, .inl ⟨_, hValue, rfl, hBad⟩⟩

/-- The settings that hold: those that the variables ask for, or every default. -/
def loaded (vars : Variables) : Settings :=
  (ofVariables vars).toOption.getD default

theorem load_on {κ : Type} (vars : Variables) (host : Host κ) :
    (load vars).on host = (.ok (loaded vars),
      match ofVariables vars with
      | .ok _ => host
      | .error failure => { host with journal := .settingsIgnored failure :: host.journal }) := by
  rw [load, loaded]
  cases ofVariables vars <;> rfl

/-- Settings are read from what the two variables ask for, or one of them is blamed. Variables of which
one is blamed count for nothing: every default holds then, and a notice is all that is left of them. At
least one worker is employed in any case. -/
theorem read_as_a_whole :
    (∀ lookup settings, ofLookup lookup = .ok settings ↔ Asked lookup settings) ∧
    (∀ lookup failure, ofLookup lookup = .error failure ↔ Blames lookup failure) ∧
    (∀ lookup, (∃ settings, Asked lookup settings) ∨ ∃ failure, Blames lookup failure) ∧
    (∀ (vars : Variables) (κ : Type) (host : Host κ), (load vars).on host =
      match ofLookup vars.text? with
      | .ok settings => (.ok settings, host)
      | .error failure => (.ok { retention := some 300, workers := none },
          { host with journal := .settingsIgnored failure :: host.journal })) ∧
    ∀ (vars : Variables) available, 1 ≤ ((loaded vars).workerCount available).val := by
  refine ⟨fun _ _ => ofLookup_eq_ok_iff, fun _ _ => ofLookup_eq_error_iff, fun lookup => ?_,
    fun vars κ host => ?_, fun vars available => ((loaded vars).workerCount available).property⟩
  · cases hRead : ofLookup lookup with
    | ok settings => exact .inl ⟨settings, ofLookup_eq_ok_iff.mp hRead⟩
    | error failure => exact .inr ⟨failure, ofLookup_eq_error_iff.mp hRead⟩
  · rw [load_on, loaded, ofVariables]
    cases ofLookup vars.text? <;> rfl

end ProcessCensus.Settings
