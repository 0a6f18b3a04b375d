import ProcessCensus.Failure
import ProcessCensus.Text.Blank
import ProcessCensus.Text.Digit
import ProcessCensus.Text.Numeral

/-!
Releases of operating systems. Questions that only newer kernels answer are asked by comparing with
them.
-/

namespace ProcessCensus

/-- Major and minor number of a release. -/
structure Release where
  major : UInt32
  minor : UInt32
deriving DecidableEq, Repr

namespace Release

/-- The release of a system that does not tell: older than any other. -/
def unknown : Release := ⟨0, 0⟩

/-- The earlier release is the smaller one. -/
def order (a b : Release) : Ordering :=
  (compare a.major b.major).then (compare a.minor b.minor)

/-- Whether this is the release `floor` or a later one. -/
def atLeast (release floor : Release) : Bool :=
  release.order floor != .lt

/-- The release as `major.minor`. -/
def text (release : Release) : String :=
  s!"{release.major}.{release.minor}"

/-- The digits of the minor number: those after a point, if the point is followed by one. -/
def minorDigits : List Char → List Char
  | '.' :: rest => rest.takeWhile Text.isDecimalDigit
  | _ => []

/-- A number of a release: ASCII digits that fit in 32 bits. -/
def number? (digits : List Char) : Option UInt32 :=
  (Text.unsigned? UInt32.size digits).map UInt32.ofNat

/-- The release at the start of a text such as `14.2.1` or `6.8.0-45-generic`. White space may come
first. Digits of any script belong to a number, but only ASCII ones have a value here. -/
def parse (value : String) : Except Failure Release :=
  let rest := Text.trimStart value.toList
  let major := rest.takeWhile Text.isDecimalDigit
  let minor := minorDigits (rest.dropWhile Text.isDecimalDigit)
  match number? major, if minor.isEmpty then some 0 else number? minor with
  | some major, some minor => .ok ⟨major, minor⟩
  | _, _ => .error (.release value)

end Release

end ProcessCensus
