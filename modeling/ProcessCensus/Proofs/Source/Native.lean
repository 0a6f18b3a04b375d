import ProcessCensus.Proofs.Darwin.Aspect
import ProcessCensus.Proofs.Linux.Aspect
import ProcessCensus.Proofs.Windows.Aspect
import ProcessCensus.Proofs.Windows.Lookup

/-!
What the sources of all systems have in common, however differently they come by their answers: they
tell of live processes only, and the calls for single aspects of a process do not get in the way of
each other.
-/

namespace ProcessCensus

/-- Whatever a kernel answers, the processes about which a source tells anything are alive, so a
census passes on all of them as they are. -/
theorem sources_report_live :
    Linux.source.ReportsLive ∧ Darwin.source.ReportsLive ∧ Windows.source.ReportsLive :=
  ⟨Linux.source_reportsLive, Darwin.source_reportsLive, Windows.source_reportsLive⟩

/-- No answer to the call for an aspect of a process can be noticed but in that aspect, and it is
unknown if the call fails. -/
theorem sources_isolate_aspects :
    Linux.source.Isolates Linux.probing ∧ Darwin.source.Isolates Darwin.probing ∧
      Windows.source.Isolates Windows.probing :=
  ⟨Linux.source_isolates, Darwin.source_isolates, Windows.source_isolates⟩

end ProcessCensus
