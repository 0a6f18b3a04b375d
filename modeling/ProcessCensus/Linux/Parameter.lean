import ProcessCensus.Linux.Kernel

/-!
Kernel parameters, read from the files below `/proc/sys`. A parameter's name has dots where the path
of its file has slashes.
-/

namespace ProcessCensus.Linux

/-- The path of a parameter's file. A name that begins with a dot or a slash gives an absolute path
of its own. -/
def parameterPath (name : String) : List Char :=
  let relative := name.toList.map fun c => if c = '.' then '/' else c
  if relative.head? = some '/' then relative else "/proc/sys/".toList ++ relative

/-- The value of a parameter, without white space at its end. -/
def readParameter (name : String) : Attempt Kernel String := do
  let kernel ← Attempt.lift Run.kernel
  match kernel.tree.readText (.ofText (parameterPath name)) with
  | .ok value => return String.ofList (Text.trimEnd value)
  | .error refusal => throw (.refused "sysctl" refusal)

/-- The value of a parameter as text, or `fallback` and a notice. -/
def textParameter (name fallback : String) : Run Kernel String :=
  (readParameter name).recover fun failure => do
    Run.note (.parameterFailed name failure)
    return fallback

/-- The value of a parameter as a number, or `fallback` and a notice. -/
def longParameter (name : String) (fallback : Int64) : Run Kernel Int64 := do
  let value := match ← (readParameter name).outcome with
    | .ok value => Text.signed? Int64.size (Text.trim value.toList)
    | .error _ => none
  match value with
  | some number => return Int64.ofInt number
  | none =>
    Run.note (.parameterDefaulted name fallback)
    return fallback

/-- The value of a parameter as a number of 32 bits, or `fallback`. A number that does not fit is no
reason for a notice. -/
def intParameter (name : String) (fallback : Int32) : Run Kernel Int32 := do
  let value ← longParameter name fallback.toInt64
  return if Int32.minValue.toInt64 ≤ value ∧ value ≤ Int32.maxValue.toInt64 then value.toInt32
    else fallback

/-- The release of the kernel. -/
def releaseText : Attempt Kernel String :=
  readParameter "kernel.osrelease"

end ProcessCensus.Linux
