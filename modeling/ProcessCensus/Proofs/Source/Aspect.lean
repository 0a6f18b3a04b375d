import ProcessCensus.Source

/-!
Aspects of a process: attributes that a source asks for by a call of their own, beside those without
which it tells nothing of a process at all. A source with isolated aspects lets no answer to such a
call be noticed in any other attribute, let alone keep the process from being told.
-/

namespace ProcessCensus

/-- What a source may ask for by a call of its own. Not every source asks for all of these. -/
inductive Aspect where
  /-- The path of the executable, and the name that is taken from it. -/
  | path
  /-- The working directory. -/
  | directory
  /-- The names of the owners. -/
  | user
  | group
  /-- The bytes that were read and written. -/
  | transfers
  | openFiles
  | bitness
  /-- The time of the start and the times that were spent. -/
  | times
  /-- The sizes in memory and the faults. -/
  | memory
deriving DecidableEq

/-- The attributes when nothing is known of one aspect. A path and a name that stand in for those of
the executable have to be given. -/
def Attributes.without (a : Attributes) (path name : String) : Aspect → Attributes
  | .path => { a with path, name }
  | .directory => { a with workingDirectory := unknown.workingDirectory }
  | .user => { a with user := unknown.user }
  | .group => { a with group := unknown.group }
  | .transfers =>
    { a with bytesRead := unknown.bytesRead, bytesWritten := unknown.bytesWritten }
  | .openFiles => { a with openFiles := unknown.openFiles }
  | .bitness => { a with bitness := unknown.bitness }
  | .times =>
    { a with
      startTime := unknown.startTime
      kernelTime := unknown.kernelTime
      userTime := unknown.userTime }
  | .memory =>
    { a with
      virtualSize := unknown.virtualSize
      residentSize := unknown.residentSize
      minorFaults := unknown.minorFaults }

/-- How a source comes by the aspects of a process. -/
structure Probing (κ : Type) where
  /-- The hosts answer all questions about the process alike, except for the call for one aspect. -/
  apart : Aspect → Int32 → Host κ → Host κ → Prop
  /-- The call for an aspect comes to nothing. -/
  silent : Aspect → Int32 → Release → Host κ → Prop
  /-- What stands in for the path of a process whose executable is not known. -/
  fallbackPath : Int32 → Host κ → String
  /-- What stands in for the name of a process whose executable is not known. -/
  fallbackName : Int32 → Host κ → String

/-- The answer to the call for an aspect cannot be noticed but in that aspect. -/
structure Source.Isolates {κ : Type} (source : Source κ) (probing : Probing κ) : Prop where
  /-- Where hosts differ by that answer, a process is told on both or on neither, and what is told
  differs in that aspect at most. -/
  isolated : ∀ aspect pid release host host', probing.apart aspect pid host host' →
    ∀ path name,
      Option.map (·.without path name aspect) <$> ((source.attributes pid release).on host).1 =
        Option.map (·.without path name aspect) <$> ((source.attributes pid release).on host').1
  /-- Where the call comes to nothing, nothing is known of that aspect. -/
  unknown : ∀ aspect pid release host a, probing.silent aspect pid release host →
    ((source.attributes pid release).on host).1 = .ok (some a) →
      a.without (probing.fallbackPath pid host) (probing.fallbackName pid host) aspect = a

end ProcessCensus
