import ProcessCensus.Proofs.Linux.Lookup

/-!
The owner that is told of a Linux process. The kernel states it in the status file, beside the process
that the task belongs to. Main statement: what the file states is what is told, and a task that belongs
to another process is not told at all. Where the file states nothing, the process is told all the same,
with the owner 0.
-/

namespace ProcessCensus.Linux

open Text

namespace Status

/-- What a status file says about a key: the rest of its last line that begins with the key and a
colon. A file that cannot be read says nothing. -/
def Says (status : Option (List Char)) (key : String) (value : List Char) : Prop :=
  ∃ text, status = some text ∧ Listing.LastRow (lines text) key value

/-- The file says about a key a number, perhaps with more words behind it. -/
def States (status : Option (List Char)) (key : String) (id : UInt64) : Prop :=
  ∃ value word, Says status key value ∧ (words value).head? = some word ∧
    unsigned? UInt64.size word = some id.toNat

/-- The file says that the task belongs to a process. -/
def Belongs (status : Option (List Char)) (owner : Int32) : Prop :=
  ∃ value, Says status "Tgid" value ∧ signed? Int32.size (trim value) = some owner.toInt

variable {status : Option (List Char)} {key : String}

theorem get?_eq_some_iff (hKey : ':' ∉ key.toList) {value : List Char} :
    (Listing.ofText (status.getD [])).get? key = some value ↔
      ∃ rest, Says status key rest ∧ trim rest = value := by
  cases status with
  | none => simp [Says, Listing.ofText, Listing.get?, lines, parts, partsFrom]
  | some text =>
      simp only [Says, Option.getD_some, Option.some.injEq, exists_eq_left']
      exact Listing.get?_eq_some_iff hKey

theorem number_of_states (hKey : ':' ∉ key.toList) {id : UInt64} (hStates : States status key id) :
    (Listing.ofText (status.getD [])).number key = id := by
  obtain ⟨value, word, hSays, hWord, hNumber⟩ := hStates
  rw [Listing.number, (get?_eq_some_iff hKey).mpr ⟨value, hSays, rfl⟩, Option.bind_some, words_trim,
    hWord, Option.bind_some, hNumber]
  simp

/-- A key without a number cannot be told from one for which the file states 0. -/
theorem number_of_unstated (hKey : ':' ∉ key.toList) (hStates : ∀ id, ¬States status key id) :
    (Listing.ofText (status.getD [])).number key = 0 := by
  rw [Listing.number]
  split
  case h_2 => rfl
  case h_1 n hNumber =>
    obtain ⟨word, hWord, hRead⟩ := Option.bind_eq_some_iff.mp hNumber
    obtain ⟨trimmed, hValue, hHead⟩ := Option.bind_eq_some_iff.mp hWord
    obtain ⟨value, hSays, rfl⟩ := (get?_eq_some_iff hKey).mp hValue
    rw [words_trim] at hHead
    refine absurd ⟨value, word, hSays, hHead, ?_⟩ (hStates (UInt64.ofNat n))
    rw [hRead, UInt64.toNat_ofNat_of_lt' (lt_of_unsigned? hRead)]

theorem pid?_of_belongs {owner : Int32} (hOwner : Belongs status owner) :
    (Listing.ofText (status.getD [])).pid? "Tgid" = some owner := by
  obtain ⟨value, hSays, hNumber⟩ := hOwner
  rw [Listing.pid?, (get?_eq_some_iff (by decide)).mpr ⟨value, hSays, rfl⟩, Option.bind_some, hNumber]
  simp

/-- The file states that the task is this process, and whose it is, and that is what is told. -/
structure Attests (status : Option (List Char)) (pid : Int32) (a : Attributes) : Prop where
  task : Belongs status pid
  user : ∃ id, States status "Uid" id ∧ a.userId = toString id
  group : ∃ id, States status "Gid" id ∧ a.groupId = toString id

/-- The file states a process and the ids of an owner. -/
structure Discloses (status : Option (List Char)) : Prop where
  task : ∃ owner, Belongs status owner
  user : ∃ id, States status "Uid" id
  group : ∃ id, States status "Gid" id

/-- What is told of a process as far as the file states it. An owner that is not stated is told
as 0. -/
structure Owned (status : Option (List Char)) (pid : Int32) (a : Attributes) : Prop where
  task : ∀ owner, Belongs status owner → owner = pid
  user : ∀ id, States status "Uid" id → a.userId = toString id
  group : ∀ id, States status "Gid" id → a.groupId = toString id
  user_unstated : (∀ id, ¬States status "Uid" id) → a.userId = "0"
  group_unstated : (∀ id, ¬States status "Gid" id) → a.groupId = "0"

variable {pid : Int32} {a : Attributes}

theorem Owned.attests_iff (hOwned : Owned status pid a) : Attests status pid a ↔ Discloses status := by
  constructor
  · rintro ⟨hTask, ⟨user, hUser, -⟩, group, hGroup, -⟩
    exact ⟨⟨pid, hTask⟩, ⟨user, hUser⟩, group, hGroup⟩
  · rintro ⟨⟨owner, hOwner⟩, ⟨user, hUser⟩, group, hGroup⟩
    exact ⟨hOwned.task owner hOwner ▸ hOwner, ⟨user, hUser, hOwned.user user hUser⟩, group, hGroup,
      hOwned.group group hGroup⟩

theorem owned_of_grounds {readings : Readings} (hGrounds : readings.Grounds pid a) :
    Owned readings.status pid a where
  task owner hOwner := hGrounds.task owner (pid?_of_belongs hOwner)
  user id hStates := by rw [hGrounds.userId, number_of_states (by decide) hStates]
  group id hStates := by rw [hGrounds.groupId, number_of_states (by decide) hStates]
  user_unstated hStates := by
    rw [hGrounds.userId, number_of_unstated (by decide) hStates]
    rfl
  group_unstated hStates := by
    rw [hGrounds.groupId, number_of_unstated (by decide) hStates]
    rfl

end Status

/-- A look at a process while the files change: the status line is still read in `first`, and what is
read after it in `later`. -/
def lookAcross (first later : Tree) (pid : Int32) : Run Kernel (Option Attributes) :=
  (resolve pid { later.readings pid with stat := (first.readings pid).stat }).orNote
    (.processUnreadable pid)

/-- A look at a process is one during which nothing changes. -/
theorem attributes_on_eq_lookAcross (pid : Int32) (release : Release) (host : Host Kernel) :
    (attributes pid release).on host =
      (lookAcross host.kernel.tree host.kernel.tree pid).on host := by
  rw [attributes_on, lookAcross]

theorem lookAcross_owned {first later : Tree} {pid : Int32} {host : Host Kernel} {a : Attributes}
    (hTold : ((lookAcross first later pid).on host).1 = .ok (some a)) :
    Status.Owned (later.readings pid).status pid a := by
  rw [lookAcross] at hTold
  -- The readings are settled here; only then is their status the one that was read later.
  have hOwned := Status.owned_of_grounds ((resolve_grounds pid _).of_orNote hTold)
  dsimp only at hOwned
  exact hOwned

/-- Whatever the files hold, and even if they change while they are read, a task that the status file
gives to another process is not told, and the owner that the file states is the one that is told. What
is told is attested by the file if the file states all of that, and only then: an owner that is not
stated is told as 0. -/
theorem owner_as_stated (pid : Int32) (host : Host Kernel) :
    (∀ release, (source.attributes pid release).on host =
      (lookAcross host.kernel.tree host.kernel.tree pid).on host) ∧
    ∀ first later a, ((lookAcross first later pid).on host).1 = .ok (some a) →
      let status := (later.readings pid).status
      Status.Owned status pid a ∧ (Status.Attests status pid a ↔ Status.Discloses status) := by
  refine ⟨fun release => attributes_on_eq_lookAcross pid release host, fun first later a hTold => ?_⟩
  have hOwned := lookAcross_owned hTold
  exact ⟨hOwned, hOwned.attests_iff⟩

/-- A system with one task, which has a status file with this content or none. -/
def taskHost (status : Option Bytes) : Host Kernel where
  kernel := {
    tree := ⟨[([[0x37]], .directory), ([[0x37], Utf8.bytes "stat"],
        .file (Utf8.bytes "7 (a) S 1 7 7 0 -1 0 12 0 3 0 25 18 0 0 20 0 1 0 150 8192 2"))] ++
      status.toList.map fun content => ([[0x37], Utf8.bytes "status"], .file content)⟩
    users := [(0, .named (Utf8.bytes "root") 0)]
    groups := []
    bootTime := .settled 1000
    clockTicks := 100
    pageSize := 4096
    ownPid := 1 }
  clock := 0
  journal := []

/-- A status file, of a task of the process with this number. -/
def taskStatus (owner : String) : Bytes :=
  Utf8.bytes ("Name:\ta\nTgid:\t" ++ owner ++ "\nUid:\t1000\t0\t0\t0\nGid:\t100\t0\t0\t0\n")

theorem discloses_taskStatus :
    Status.Discloses (((taskHost (some (taskStatus "7"))).kernel.tree.readings 7).status) := by
  let rows : List (List Char) := ["Name:\ta".toList, "Tgid:\t7".toList,
    "Uid:\t1000\t0\t0\t0".toList, "Gid:\t100\t0\t0\t0".toList]
  have hStatus : ((taskHost (some (taskStatus "7"))).kernel.tree.readings 7).status =
      some (rows.flatMap (· ++ ['\n'])) := by rfl
  have hLines : lines (rows.flatMap (· ++ ['\n'])) = rows := by decide
  have hSays : ∀ key value, Listing.LastRow rows key value →
      Status.Says (some (rows.flatMap (· ++ ['\n']))) key value :=
    fun key value hLast => ⟨_, rfl, by rwa [hLines]⟩
  rw [hStatus]
  refine ⟨⟨7, "\t7".toList, hSays _ _ ⟨rows.take 1, rows.drop 2, ?_, ?_⟩, ?_⟩,
    ⟨1000, "\t1000\t0\t0\t0".toList, "1000".toList,
      hSays _ _ ⟨rows.take 2, rows.drop 3, ?_, ?_⟩, ?_, ?_⟩,
    ⟨100, "\t100\t0\t0\t0".toList, "100".toList,
      hSays _ _ ⟨rows.take 3, rows.drop 4, ?_, ?_⟩, ?_, ?_⟩⟩
  all_goals decide

/-- A task that states its own process, and one of another process. -/
theorem owner_as_stated_disclosed :
    let host := taskHost (some (taskStatus "7"))
    ∃ a, ((source.attributes 7 ⟨6, 8⟩).on host).1 = .ok (some a) ∧
      Status.Attests (host.kernel.tree.readings 7).status 7 a ∧ a.userId = "1000" ∧
      a.groupId = "100" ∧
      ((source.attributes 7 ⟨6, 8⟩).on (taskHost (some (taskStatus "5")))).1 = .ok none := by
  intro host
  have hIds : Option.map (fun a => (a.userId, a.groupId)) <$>
      ((source.attributes 7 ⟨6, 8⟩).on host).1 = .ok (some ("1000", "100")) := by decide +kernel
  obtain ⟨a, hTold, hBoth⟩ := Run.exists_some_of_map hIds
  obtain ⟨hUser, hGroup⟩ := Prod.mk.inj hBoth
  obtain ⟨hLook, hOwned⟩ := owner_as_stated 7 host
  have hAcross := hTold
  rw [hLook ⟨6, 8⟩] at hAcross
  exact ⟨a, hTold, (hOwned _ _ a hAcross).2.mpr discloses_taskStatus, hUser, hGroup, by rfl⟩

/-- A task whose status file cannot be read is told, and so is one that is gone when the file is read,
even if it belongs to another process. The owner of both is told as 0, under the name of that user. -/
theorem unstated_owner_told_as_root :
    let host := taskHost none
    (∃ a, ((source.attributes 7 ⟨6, 8⟩).on host).1 = .ok (some a) ∧ a.userId = "0" ∧
      a.user = some "root" ∧ ¬Status.Attests (host.kernel.tree.readings 7).status 7 a) ∧
    ∃ a, ((lookAcross (taskHost (some (taskStatus "5"))).kernel.tree .empty 7).on host).1 =
        .ok (some a) ∧ a.userId = "0" ∧ a.user = some "root" := by
  intro host
  have hSilent : (host.kernel.tree.readings 7).status = none := by rfl
  have hIds : Option.map (fun a => (a.userId, a.user)) <$>
      ((source.attributes 7 ⟨6, 8⟩).on host).1 = .ok (some ("0", some "root")) := by decide +kernel
  have hGone : Option.map (fun a => (a.userId, a.user)) <$>
      ((lookAcross (taskHost (some (taskStatus "5"))).kernel.tree .empty 7).on host).1 =
        .ok (some ("0", some "root")) := by decide +kernel
  obtain ⟨a, hTold, hBoth⟩ := Run.exists_some_of_map hIds
  obtain ⟨a', hTold', hBoth'⟩ := Run.exists_some_of_map hGone
  obtain ⟨hUser, hName⟩ := Prod.mk.inj hBoth
  obtain ⟨hUser', hName'⟩ := Prod.mk.inj hBoth'
  refine ⟨⟨a, hTold, hUser, hName, ?_⟩, a', hTold', hUser', hName'⟩
  rintro ⟨⟨value, ⟨text, hText, -⟩, -⟩, -⟩
  cases hSilent.symm.trans hText

end ProcessCensus.Linux
