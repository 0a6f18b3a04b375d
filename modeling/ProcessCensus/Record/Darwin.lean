import ProcessCensus.Record.Layout
import ProcessCensus.Release

/-!
Records that a Darwin kernel answers with.
-/

namespace ProcessCensus.Record

/-- What a Darwin kernel tells about a process as such: identity, owner, start. -/
def processInfo : Layout :=
  .ofMembers "ProcBsdInfo"
    [⟨"pbi_flags", .word 4⟩, ⟨"pbi_status", .word 4⟩, ⟨"pbi_xstatus", .word 4⟩,
     ⟨"pbi_pid", .word 4⟩, ⟨"pbi_ppid", .word 4⟩, ⟨"pbi_uid", .word 4⟩, ⟨"pbi_gid", .word 4⟩,
     ⟨"pbi_ruid", .word 4⟩, ⟨"pbi_rgid", .word 4⟩, ⟨"pbi_svuid", .word 4⟩, ⟨"pbi_svgid", .word 4⟩,
     ⟨"rfu_1", .word 4⟩, ⟨"pbi_comm", .array 1 16⟩, ⟨"pbi_name", .array 1 32⟩,
     ⟨"pbi_nfiles", .word 4⟩, ⟨"pbi_pgid", .word 4⟩, ⟨"pbi_pjobc", .word 4⟩, ⟨"e_tdev", .word 4⟩,
     ⟨"e_tpgid", .word 4⟩, ⟨"pbi_nice", .word 4⟩, ⟨"pbi_start_tvsec", .word 8⟩,
     ⟨"pbi_start_tvusec", .word 8⟩]

/-- What a Darwin kernel tells about the task of a process: memory, times, threads. -/
def taskInfo : Layout :=
  .ofMembers "ProcTaskInfo"
    [⟨"pti_virtual_size", .word 8⟩, ⟨"pti_resident_size", .word 8⟩, ⟨"pti_total_user", .word 8⟩,
     ⟨"pti_total_system", .word 8⟩, ⟨"pti_threads_user", .word 8⟩,
     ⟨"pti_threads_system", .word 8⟩, ⟨"pti_policy", .word 4⟩, ⟨"pti_faults", .word 4⟩,
     ⟨"pti_pageins", .word 4⟩, ⟨"pti_cow_faults", .word 4⟩, ⟨"pti_messages_sent", .word 4⟩,
     ⟨"pti_messages_received", .word 4⟩, ⟨"pti_syscalls_mach", .word 4⟩,
     ⟨"pti_syscalls_unix", .word 4⟩, ⟨"pti_csw", .word 4⟩, ⟨"pti_threadnum", .word 4⟩,
     ⟨"pti_numrunning", .word 4⟩, ⟨"pti_priority", .word 4⟩]

/-- A process and its task, as one answer. -/
def processTaskInfo : Layout :=
  .ofMembers "ProcTaskAllInfo"
    [⟨"pbsd", .record processInfo⟩, ⟨"ptinfo", .record taskInfo⟩]

/-- Resource usage of a process, with the disk counters at the end. -/
def resourceUsage : Layout :=
  .ofMembers "RusageInfoV2"
    [⟨"ri_uuid", .array 1 16⟩, ⟨"ri_user_time", .word 8⟩, ⟨"ri_system_time", .word 8⟩,
     ⟨"ri_pkg_idle_wkups", .word 8⟩, ⟨"ri_interrupt_wkups", .word 8⟩, ⟨"ri_pageins", .word 8⟩,
     ⟨"ri_wired_size", .word 8⟩, ⟨"ri_resident_size", .word 8⟩, ⟨"ri_phys_footprint", .word 8⟩,
     ⟨"ri_proc_start_abstime", .word 8⟩, ⟨"ri_proc_exit_abstime", .word 8⟩,
     ⟨"ri_child_user_time", .word 8⟩, ⟨"ri_child_system_time", .word 8⟩,
     ⟨"ri_child_pkg_idle_wkups", .word 8⟩, ⟨"ri_child_interrupt_wkups", .word 8⟩,
     ⟨"ri_child_pageins", .word 8⟩, ⟨"ri_child_elapsed_abstime", .word 8⟩,
     ⟨"ri_diskio_bytesread", .word 8⟩, ⟨"ri_diskio_byteswritten", .word 8⟩]

/-- The status of a file in a Darwin kernel. -/
def vnodeStat : Layout :=
  .ofMembers "VinfoStat"
    [⟨"vst_dev", .word 4⟩, ⟨"vst_mode", .word 2⟩, ⟨"vst_nlink", .word 2⟩, ⟨"vst_ino", .word 8⟩,
     ⟨"vst_uid", .word 4⟩, ⟨"vst_gid", .word 4⟩, ⟨"vst_atime", .word 8⟩,
     ⟨"vst_atimensec", .word 8⟩, ⟨"vst_mtime", .word 8⟩, ⟨"vst_mtimensec", .word 8⟩,
     ⟨"vst_ctime", .word 8⟩, ⟨"vst_ctimensec", .word 8⟩, ⟨"vst_birthtime", .word 8⟩,
     ⟨"vst_birthtimensec", .word 8⟩, ⟨"vst_size", .word 8⟩, ⟨"vst_blocks", .word 8⟩,
     ⟨"vst_blksize", .word 4⟩, ⟨"vst_flags", .word 4⟩, ⟨"vst_gen", .word 4⟩,
     ⟨"vst_rdev", .word 4⟩, ⟨"vst_qspare", .array 8 2⟩]

/-- A file in a Darwin kernel. -/
def vnodeInfo : Layout :=
  .ofMembers "VnodeInfo"
    [⟨"vi_stat", .record vnodeStat⟩, ⟨"vi_type", .word 4⟩, ⟨"vi_pad", .word 4⟩,
     ⟨"vi_fsid", .array 4 2⟩]

/-- A file and its path. -/
def vnodePath : Layout :=
  .ofMembers "VnodeInfoPath"
    [⟨"vip_vi", .record vnodeInfo⟩, ⟨"vip_path", .array 1 1024⟩]

/-- The current and the root directory of a process. -/
def processPaths : Layout :=
  .ofMembers "ProcVnodePathInfo"
    [⟨"pvi_cdir", .record vnodePath⟩, ⟨"pvi_rdir", .record vnodePath⟩]

/-- The record of resource usage that a kernel of the given release has, if any. It came with
release 10.9. -/
def resourceUsageFor (release : Release) : Option Layout :=
  if release.atLeast ⟨10, 9⟩ then some resourceUsage else none

end ProcessCensus.Record
