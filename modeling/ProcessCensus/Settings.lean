import ProcessCensus.Run
import ProcessCensus.Text.Blank
import ProcessCensus.Text.Numeral
import ProcessCensus.Text.Utf8

/-!
Settings from environment variables. They are read as a whole: one unusable value makes all of them
unusable, and then every default holds.
-/

namespace ProcessCensus

/-- How long memoized values are kept and how many workers resolve a listing. -/
structure Settings where
  /-- Milliseconds; without a number, values are kept for good. -/
  retention : Option Nat
  /-- Without a number, as many as the machine can run at once. -/
  workers : Option { n : Nat // 0 < n }
deriving DecidableEq

/-- Environment variables with their values; of two with one name the first counts. -/
abbrev Variables := List (String × Bytes)

namespace Variables

/-- The value of a variable as text. A value that is not UTF-8 counts as none. -/
def text? (vars : Variables) (key : String) : Option String :=
  (vars.lookup key).bind fun value => (Text.Utf8.decode? value).map String.ofList

end Variables

namespace Settings

/-- The variable with the milliseconds to keep memoized values; a negative number keeps them for
good. -/
def retentionKey : String := "PROCVIEW_MEMOIZER_EXPIRATION"

/-- The variable with the number of workers. -/
def workersKey : String := "PROCVIEW_THREADS"

/-- What holds without any setting. -/
def default : Settings := { retention := some 300, workers := none }

/-- The time to keep memoized values that a number of milliseconds stands for. -/
def retentionOf (milliseconds : Int) : Option Nat :=
  if milliseconds < 0 then none else some milliseconds.toNat

/-- The retention that a value of its variable asks for. -/
def parseRetention (value : String) : Except Failure (Option Nat) :=
  match Text.signed? Int64.size (Text.trim value.toList) with
  | some milliseconds => .ok (retentionOf milliseconds)
  | none => .error (.setting retentionKey value)

/-- The number of workers that a value of its variable asks for. -/
def parseWorkers (value : String) : Except Failure { n : Nat // 0 < n } :=
  match Text.unsigned? UInt64.size (Text.trim value.toList) with
  | some n => if h : 0 < n then .ok ⟨n, h⟩ else .error (.setting workersKey value)
  | none => .error (.setting workersKey value)

/-- The settings that `lookup` gives values for. The retention is looked at first. -/
def ofLookup (lookup : String → Option String) : Except Failure Settings := do
  let retention ← match lookup retentionKey with
    | some value => parseRetention value
    | none => pure default.retention
  let workers ← match lookup workersKey with
    | some value => some <$> parseWorkers value
    | none => pure default.workers
  return { retention, workers }

/-- The settings in a set of variables. -/
def ofVariables (vars : Variables) : Except Failure Settings :=
  ofLookup vars.text?

/-- The settings in a set of variables, or the defaults and a notice. -/
def load {κ : Type} (vars : Variables) : Run κ Settings :=
  Attempt.recover (.ofExcept (ofVariables vars)) fun failure => do
    Run.note (.settingsIgnored failure)
    return default

/-- How many workers resolve a listing on a machine that can run `available` at once. -/
def workerCount (settings : Settings) (available : { n : Nat // 0 < n }) : { n : Nat // 0 < n } :=
  settings.workers.getD available

end Settings

end ProcessCensus
