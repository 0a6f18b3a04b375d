import ProcessCensus.Environment
import ProcessCensus.Run
import ProcessCensus.Text.Utf8

/-!
How a process was started: its arguments and its environment. Kernels hand them out in two forms.
One is a pair of byte strings with a zero byte after each element. The other is a blob: the number
of arguments, the path of the executable, zero bytes as padding, the arguments and then the
environment, each of them with a zero byte after it. The padding runs up to the first byte that is
not zero, so an empty first argument is taken for padding.
-/

namespace ProcessCensus

/-- Arguments and environment of a process. -/
structure Invocation where
  arguments : List String
  environment : Environment
deriving DecidableEq

namespace Invocation

/-- No arguments and no environment. -/
def empty : Invocation := ⟨[], .empty⟩

/-- The arguments joined by single spaces. -/
def commandLine (arguments : List String) : String :=
  " ".intercalate arguments

/-- The elements of a byte string with a zero byte after each. The last zero byte may be missing;
empty elements count, but a byte string without elements and one with a single empty element are
both read as having none. -/
def nulSeparated (bytes : Bytes) : List String :=
  let body := if bytes.getLast? = some 0 then bytes.dropLast else bytes
  if body.isEmpty then [] else (Text.parts 0 body).map Text.Utf8.text

/-- The largest number of arguments that a blob may announce. -/
def maxArguments : Int32 := 4096

/-- The strings with a zero byte after each, up to the end of the bytes; the last one may lack its
zero byte. -/
def terminated (bytes : Bytes) : List Bytes :=
  let pieces := Text.parts 0 bytes
  if pieces.getLast? = some [] then pieces.dropLast else pieces

/-- The number of arguments that the first four bytes of a blob announce. -/
def announced (blob : Bytes) : Except Failure Int32 :=
  if blob.length < 4 then
    .error (.malformed "procargs" s!"{blob.length} byte buffer has no argument count")
  else
    let count := Int32.ofNat (Bytes.toNat (blob.take 4))
    if 1 ≤ count ∧ count ≤ maxArguments then .ok count
    else .error (.malformed "procargs" s!"argument count {count}")

/-- What follows the executable's path and the padding in a blob. -/
def afterPadding (blob : Bytes) : Bytes :=
  ((((blob.drop 4).dropWhile (· != 0)).drop 1).dropWhile (· == 0))

/-- Reads a blob. The end of the blob ends everything; the arguments end when the announced number
of them has been read, and the environment ends at an empty string. -/
def ofBlob (blob : Bytes) : Except Failure Invocation := do
  let count ← announced blob
  let strings := terminated (afterPadding blob)
  let arguments := strings.take count.toNatClampNeg
  let environment := (strings.drop count.toNatClampNeg).takeWhile (!·.isEmpty)
  return {
    arguments := arguments.map Text.Utf8.text
    environment := .ofLines (environment.map Text.Utf8.text) }

/-- Reads the blob of a process. A malformed one counts as empty. Pseudo processes never have a
proper one, so only real processes are worth a notice. -/
def readBlob {κ : Type} (pid : Int32) (blob : Bytes) : Run κ Invocation :=
  Attempt.recover (.ofExcept (ofBlob blob)) fun failure => do
    if 0 < pid then Run.note (.argumentsMalformed pid failure)
    return empty

end Invocation

end ProcessCensus
