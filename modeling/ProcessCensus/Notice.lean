import ProcessCensus.Failure

/-!
What is written to the journal: things that went wrong without keeping the caller from an answer.
-/

namespace ProcessCensus

/-- How much a notice matters. -/
inductive Severity where
  | warning
  | debug
  | trace
deriving DecidableEq, Repr

/-- The word in front of a notice. -/
def Severity.label : Severity → String
  | warning => "WARN"
  | debug => "DEBUG"
  | trace => "TRACE"

/-- A line of the journal. -/
inductive Notice where
  /-- The settings are unusable and the defaults hold. -/
  | settingsIgnored (cause : Failure)
  /-- The system does not tell its release. -/
  | releaseUnknown (cause : Failure)
  /-- The processes cannot be listed. -/
  | listingFailed (cause : Failure)
  /-- An answer filled its buffer and is asked for again. -/
  | bufferFilled (what : String) (capacity : Nat)
  /-- An answer filled every buffer and is kept as it is. -/
  | bufferKept (what : String) (attempts capacity : Nat)
  /-- The arguments of a process make no sense. -/
  | argumentsMalformed (pid : Int32) (cause : Failure)
  /-- A process cannot be read, or not all of it. -/
  | processUnreadable (pid : Int32) (cause : Failure)
  /-- A call failed that is not about one process, or whose process is clear. -/
  | callFailed (cause : Failure)
  /-- The user database does not answer. -/
  | userUnknown (id : UInt32) (cause : Failure)
  /-- The group database does not answer. -/
  | groupUnknown (id : UInt32) (cause : Failure)
  /-- The system does not tell when it started. -/
  | bootTimeUnknown
  /-- A kernel parameter cannot be read. -/
  | parameterFailed (name : String) (cause : Failure)
  /-- A kernel parameter is no number, and `value` stands in for it. -/
  | parameterDefaulted (name : String) (value : Int64)
  /-- The kernel does not tell the unit of its clock. -/
  | timebaseUnknown (code : Int32)
deriving DecidableEq, Repr

namespace Notice

/-- How much the notice matters. -/
def severity : Notice → Severity
  | settingsIgnored _ => .warning
  | listingFailed _ => .warning
  | argumentsMalformed .. => .warning
  | processUnreadable .. => .trace
  | callFailed _ => .trace
  | userUnknown .. => .trace
  | groupUnknown .. => .trace
  | _ => .debug

/-- The text of a notice. -/
def text : Notice → String
  | settingsIgnored cause => "ignoring procview configuration: " ++ cause.message
  | releaseUnknown cause => "unable to detect the operating system version: " ++ cause.message
  | listingFailed cause => "unable to enumerate processes: " ++ cause.message
  | bufferFilled what capacity =>
    s!"{what}: buffer of {capacity} elements filled, probing again"
  | bufferKept what attempts capacity =>
    s!"{what}: still full after {attempts} attempts, keeping {capacity} elements"
  | argumentsMalformed pid cause =>
    s!"unable to decode arguments of process {pid}: " ++ cause.message
  | processUnreadable pid cause => s!"process {pid}: " ++ cause.message
  | callFailed cause => cause.message
  | userUnknown id cause => s!"user {id}: " ++ cause.message
  | groupUnknown id cause => s!"group {id}: " ++ cause.message
  | bootTimeUnknown => "no btime in /proc/stat, process start times are relative to the epoch"
  | parameterFailed name cause => s!"sysctl {name}: " ++ cause.message
  | parameterDefaulted name value => s!"sysctl {name} unavailable, using {value}"
  | timebaseUnknown code => s!"mach_timebase_info failed ({code}), assuming nanoseconds"

/-- The notice as a line of the journal. -/
def line (notice : Notice) : String :=
  notice.severity.label ++ " " ++ notice.text

end Notice

end ProcessCensus
