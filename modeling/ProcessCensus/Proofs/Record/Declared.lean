import ProcessCensus.Proofs.Record.Placement
import ProcessCensus.Record.Accounts
import ProcessCensus.Record.Darwin
import ProcessCensus.Record.Image
import ProcessCensus.Record.Windows

/-!
Every layout that the library declares is sound: its members have names of their own without dots, and
the records among them are sound.
-/

namespace ProcessCensus.Record

/-- The layouts of all records that the library reads, those of nested records among them. -/
def declared : List Layout :=
  [processInfo, taskInfo, processTaskInfo, resourceUsage, vnodeStat, vnodeInfo, vnodePath,
   processPaths, darwinUser, gnuUser, group, processRow, stringHeader, memoryCounters, imageIdent]

/-- A record of numbers and arrays is sound. -/
theorem sound_of_flat {name : String} {members : List Member}
    (hNames : (members.map Member.name).Nodup) (hProper : ∀ m ∈ members, m.Proper)
    (hFlat : members.filterMap Member.record? = []) : (Layout.ofMembers name members).Sound := by
  refine sound_ofMembers hNames hProper ?_
  rw [hFlat]
  exact List.forall_mem_nil _

theorem sound_processInfo : processInfo.Sound :=
  sound_of_flat (by decide) (by decide) rfl

theorem sound_taskInfo : taskInfo.Sound :=
  sound_of_flat (by decide) (by decide) rfl

theorem sound_processTaskInfo : processTaskInfo.Sound :=
  sound_ofMembers (by decide) (by decide)
    (List.forall_mem_cons.mpr ⟨sound_processInfo, List.forall_mem_singleton.mpr sound_taskInfo⟩)

theorem sound_vnodeStat : vnodeStat.Sound :=
  sound_of_flat (by decide) (by decide) rfl

theorem sound_vnodeInfo : vnodeInfo.Sound :=
  sound_ofMembers (by decide) (by decide) (List.forall_mem_singleton.mpr sound_vnodeStat)

theorem sound_vnodePath : vnodePath.Sound :=
  sound_ofMembers (by decide) (by decide) (List.forall_mem_singleton.mpr sound_vnodeInfo)

theorem sound_processPaths : processPaths.Sound :=
  sound_ofMembers (by decide) (by decide)
    (List.forall_mem_cons.mpr ⟨sound_vnodePath, List.forall_mem_singleton.mpr sound_vnodePath⟩)

theorem sound_resourceUsage : resourceUsage.Sound :=
  sound_of_flat (by decide) (by decide) rfl

theorem sound_darwinUser : darwinUser.Sound :=
  sound_of_flat (by decide) (by decide) rfl

theorem sound_gnuUser : gnuUser.Sound :=
  sound_of_flat (by decide) (by decide) rfl

theorem sound_group : group.Sound :=
  sound_of_flat (by decide) (by decide) rfl

theorem sound_processRow : processRow.Sound :=
  sound_of_flat (by decide) (by decide) rfl

theorem sound_stringHeader : stringHeader.Sound :=
  sound_of_flat (by decide) (by decide) rfl

theorem sound_memoryCounters : memoryCounters.Sound :=
  sound_of_flat (by decide) (by decide) rfl

theorem sound_imageIdent : imageIdent.Sound :=
  sound_of_flat (by decide) (by decide) rfl

theorem sound_of_mem_declared {layout : Layout} (hDeclared : layout ∈ declared) : layout.Sound := by
  simp only [declared, List.mem_cons, List.not_mem_nil, or_false] at hDeclared
  rcases hDeclared with rfl | rfl | rfl | rfl | rfl | rfl | rfl | rfl | rfl | rfl | rfl | rfl | rfl |
    rfl | rfl
  exacts [sound_processInfo, sound_taskInfo, sound_processTaskInfo, sound_resourceUsage,
    sound_vnodeStat, sound_vnodeInfo, sound_vnodePath, sound_processPaths, sound_darwinUser,
    sound_gnuUser, sound_group, sound_processRow, sound_stringHeader, sound_memoryCounters,
    sound_imageIdent]

end ProcessCensus.Record
