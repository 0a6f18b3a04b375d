import ProcessCensus.Text.Split

/-!
Environment variables of a process, in the order in which it declared them.
-/

namespace ProcessCensus

/-- Variables with their values. A key occurs once, at the place of its first declaration and with
the value of its last one. -/
structure Environment where
  entries : List (String × String)
deriving DecidableEq

namespace Environment

/-- No variables. -/
def empty : Environment := ⟨[]⟩

/-- The number of variables. -/
def size (environment : Environment) : Nat :=
  environment.entries.length

/-- The value of a variable. -/
def get? (environment : Environment) (key : String) : Option String :=
  (environment.entries.find? (·.1 == key)).map (·.2)

/-- Sets a variable among entries, and tells which value it had: in place if the key is there, at the
end if it is not. -/
def replaceEntry (key value : String) :
    List (String × String) → Option String × List (String × String)
  | [] => (none, [(key, value)])
  | (k, v) :: rest =>
    if k = key then (some v, (k, value) :: rest)
    else
      let (previous, rest) := replaceEntry key value rest
      (previous, (k, v) :: rest)

/-- Sets a variable and tells which value it had. -/
def replace (environment : Environment) (key value : String) : Option String × Environment :=
  let (previous, entries) := replaceEntry key value environment.entries
  (previous, ⟨entries⟩)

/-- The environment with a variable set. -/
def insert (environment : Environment) (key value : String) : Environment :=
  (environment.replace key value).2

/-- The environment after setting variables one after the other. -/
def ofList (pairs : List (String × String)) : Environment :=
  pairs.foldl (fun environment (key, value) => environment.insert key value) empty

/-- The variable that a line such as `KEY=VALUE` sets. The key ends at the first equals sign and is
not empty. -/
def entry? (line : String) : Option (String × String) :=
  match Text.splitOnce '=' line.toList with
  | some (key, value) =>
    if key.isEmpty then none else some (String.ofList key, String.ofList value)
  | none => none

/-- The environment that the lines set. A line that sets no variable is passed over. -/
def ofLines (lines : List String) : Environment :=
  ofList (lines.filterMap entry?)

end Environment

end ProcessCensus
