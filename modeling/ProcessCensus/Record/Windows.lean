import ProcessCensus.Record.Layout

/-!
Records that Windows answers with.
-/

namespace ProcessCensus.Record

/-- A row of the process table of Windows. -/
def processRow : Layout :=
  .ofMembers "ProcessEntry32W"
    [⟨"dwSize", .word 4⟩, ⟨"cntUsage", .word 4⟩, ⟨"th32ProcessID", .word 4⟩,
     ⟨"th32DefaultHeapID", .word 8⟩, ⟨"th32ModuleID", .word 4⟩, ⟨"cntThreads", .word 4⟩,
     ⟨"th32ParentProcessID", .word 4⟩, ⟨"pcPriClassBase", .word 4⟩, ⟨"dwFlags", .word 4⟩,
     ⟨"szExeFile", .array 2 260⟩]

/-- The header in front of a counted string on Windows. -/
def stringHeader : Layout :=
  .ofMembers "UnicodeString"
    [⟨"Length", .word 2⟩, ⟨"MaximumLength", .word 2⟩, ⟨"Buffer", .word 8⟩]

/-- Memory counters of a process on Windows. -/
def memoryCounters : Layout :=
  .ofMembers "VmCounters"
    [⟨"PeakVirtualSize", .word 8⟩, ⟨"VirtualSize", .word 8⟩, ⟨"PageFaultCount", .word 4⟩,
     ⟨"PeakWorkingSetSize", .word 8⟩, ⟨"WorkingSetSize", .word 8⟩,
     ⟨"QuotaPeakPagedPoolUsage", .word 8⟩, ⟨"QuotaPagedPoolUsage", .word 8⟩,
     ⟨"QuotaPeakNonPagedPoolUsage", .word 8⟩, ⟨"QuotaNonPagedPoolUsage", .word 8⟩,
     ⟨"PagefileUsage", .word 8⟩, ⟨"PeakPagefileUsage", .word 8⟩]

end ProcessCensus.Record
