import ProcessCensus.Platform
import ProcessCensus.Text.Quoted

/-!
The ways in which asking a system can fail. A process that has gone is none of them for a caller of
the census: there it is an absent result.
-/

namespace ProcessCensus

/-- Why a question has no answer. -/
inductive Failure where
  /-- A call to the system failed with an error code. -/
  | native (call : String) (code : Int32)
  /-- A call succeeded, but its answer makes no sense. -/
  | malformed (what reason : String)
  /-- The system does not offer this. -/
  | unsupported (what : String)
  /-- A setting has an unusable value. -/
  | setting (key value : String)
  /-- The text is no release of an operating system. -/
  | release (value : String)
deriving DecidableEq, Repr

/-- What the file system says when it refuses to open or read: an error code, that nothing is
there, or no particular reason. -/
inductive Refusal where
  | code (raw : Int32)
  | absent
  | unspecified
deriving DecidableEq, Repr

namespace Failure

/-- The code for something that does not exist. -/
def notFound : Int32 := 2

/-- A call that was refused. A refusal without a code counts as code 2 if nothing was there, and
as code 0 otherwise. -/
def refused (call : String) : Refusal → Failure
  | .code raw => native call raw
  | .absent => native call notFound
  | .unspecified => native call 0

/-- The text of a failure. -/
def message : Failure → String
  | native call code => s!"{call} failed with OS error {code}"
  | malformed what reason => s!"malformed {what}: {reason}"
  | unsupported what => s!"{what} is not supported on this platform"
  | setting key value => "invalid value " ++ Text.quoted value ++ " for " ++ key
  | release value => "unrecognized operating system version " ++ Text.quoted value

/-- The error code of a failed call. -/
def code? : Failure → Option Int32
  | native _ code => some code
  | _ => none

/-- Whether the failure says that the process asked about no longer exists. -/
def isGone (platform : Platform) (failure : Failure) : Bool :=
  match failure.code? with
  | some code => platform.goneCodes.contains code
  | none => false

end Failure

end ProcessCensus
