/-!
Families of operating systems.
-/

namespace ProcessCensus

/-- The family of an operating system. -/
inductive Platform where
  | darwin
  | linux
  | windows
  | unserved
deriving DecidableEq, Repr

namespace Platform

/-- Every family, in the order of their declaration. -/
def all : List Platform :=
  [darwin, linux, windows, unserved]

/-- The name shown to people. -/
def name : Platform → String
  | darwin => "macOS"
  | linux => "Linux"
  | windows => "Windows"
  | unserved => "Unsupported Operating System"

/-- The tag shown in descriptions of values. -/
def tag : Platform → String
  | darwin => "MacOs"
  | linux => "Linux"
  | windows => "Windows"
  | unserved => "Unsupported"

/-- The error codes that mean: what was asked about does not exist (any more). -/
def goneCodes : Platform → List Int32
  | windows => [87, 2]
  | _ => [3, 2]

end Platform

end ProcessCensus
