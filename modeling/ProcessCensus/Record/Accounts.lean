import ProcessCensus.Platform
import ProcessCensus.Record.Layout

/-!
Entries of the user and group databases.
-/

namespace ProcessCensus.Record

/-- An entry of the user database on Darwin. -/
def darwinUser : Layout :=
  .ofMembers "DarwinPasswd"
    [⟨"pw_name", .word 8⟩, ⟨"pw_passwd", .word 8⟩, ⟨"pw_uid", .word 4⟩, ⟨"pw_gid", .word 4⟩,
     ⟨"pw_change", .word 8⟩, ⟨"pw_class", .word 8⟩, ⟨"pw_gecos", .word 8⟩, ⟨"pw_dir", .word 8⟩,
     ⟨"pw_shell", .word 8⟩, ⟨"pw_expire", .word 8⟩]

/-- An entry of the user database on Linux. -/
def gnuUser : Layout :=
  .ofMembers "GnuPasswd"
    [⟨"pw_name", .word 8⟩, ⟨"pw_passwd", .word 8⟩, ⟨"pw_uid", .word 4⟩, ⟨"pw_gid", .word 4⟩,
     ⟨"pw_gecos", .word 8⟩, ⟨"pw_dir", .word 8⟩, ⟨"pw_shell", .word 8⟩]

/-- An entry of the group database, the same on both. -/
def group : Layout :=
  .ofMembers "Group"
    [⟨"gr_name", .word 8⟩, ⟨"gr_passwd", .word 8⟩, ⟨"gr_gid", .word 4⟩, ⟨"gr_mem", .word 8⟩]

/-- The entry of the user database on a platform. -/
def userFor : Platform → Layout
  | .darwin => darwinUser
  | _ => gnuUser

end ProcessCensus.Record
