import ProcessCensus.Darwin.Kernel

/-!
Kernel parameters, read by their names or by their numeric addresses.
-/

namespace ProcessCensus.Darwin

/-- A name as the kernel takes it. It cannot hold a zero character. -/
def checkName (name : String) : Except Failure Unit :=
  if name.toList.contains '\x00' then .error (.malformed "sysctl name" name) else .ok ()

/-- The number in a parameter of `width` bytes. Bytes that the kernel does not write are zero. -/
def numberParameter (name : String) (width : Nat) : Attempt Kernel Nat := do
  Attempt.ofExcept (checkName name)
  let written ← perform "sysctlbyname" (.parameter name) width
  return Bytes.toNat (written.buffer width).toList

/-- A parameter as a number of 32 bits, or `fallback` and a notice. -/
def intParameter (name : String) (fallback : Int32) : Run Kernel Int32 :=
  (Int32.ofNat <$> numberParameter name 4).recover fun failure => do
    Run.note (.parameterFailed name failure)
    return fallback

/-- A parameter as a number of 64 bits, or `fallback` and a notice. -/
def longParameter (name : String) (fallback : Int64) : Run Kernel Int64 :=
  (Int64.ofNat <$> numberParameter name 8).recover fun failure => do
    Run.note (.parameterFailed name failure)
    return fallback

/-- The bytes of a parameter of any size. -/
def bytesParameter (name : String) : Attempt Kernel (Sizing.Buffer UInt8) := do
  Attempt.ofExcept (checkName name)
  let call := Call.parameter name
  Sizing.probeThenFetch name 1 0
    (Int.toNat <$> askSize "sysctlbyname" call)
    (fun capacity => do
      let written ← perform "sysctlbyname" call capacity
      return { written := written.content, reported := written.count.toNat })

/-- The text in an answer, up to its first zero byte. What was not written is zero. -/
def answerText (answer : Sizing.Buffer UInt8) : String :=
  Text.cString answer.written

/-- A parameter as text, or `fallback` and a notice. -/
def textParameter (name fallback : String) : Run Kernel String :=
  (answerText <$> bytesParameter name).recover fun failure => do
    Run.note (.parameterFailed name failure)
    return fallback

/-- The name under which a parameter with a numeric address is known here. -/
def addressName (address : List Int32) : String :=
  ".".intercalate (address.map toString)

/-- The bytes of the parameter at a numeric address, `capacity` of them at most. -/
def addressedParameter (address : List Int32) (capacity : Nat) :
    Attempt Kernel (Sizing.Buffer UInt8) := do
  let written ← perform "sysctl" (.parameter (addressName address)) capacity
  return written.buffer (min capacity written.count.toNat)

/-- The release of the system. -/
def releaseText : Attempt Kernel String :=
  answerText <$> bytesParameter "kern.osproductversion"

end ProcessCensus.Darwin
