import ProcessCensus.Record.Layout

/-!
The identification of an executable image.
-/

namespace ProcessCensus.Record

/-- The first bytes of an executable image on Linux. -/
def imageIdent : Layout :=
  .ofMembers "ElfIdent"
    [⟨"ei_mag", .array 1 4⟩, ⟨"ei_class", .word 1⟩, ⟨"ei_data", .word 1⟩, ⟨"ei_version", .word 1⟩,
     ⟨"ei_osabi", .word 1⟩, ⟨"ei_abiversion", .word 1⟩, ⟨"ei_pad", .array 1 7⟩]

end ProcessCensus.Record
