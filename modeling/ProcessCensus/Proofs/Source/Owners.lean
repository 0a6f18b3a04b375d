import ProcessCensus.Proofs.Darwin.Resolver
import ProcessCensus.Proofs.Linux.Aspect

/-!
Names of the owners of a process. However a database answers the calls for a name, the calls come to an
end, the name is found if it needs no more than a mebibyte, and a failure is noted and costs no more
than that name.
-/

namespace ProcessCensus

open Accounts

variable {κ : Type}

/-- A source asks the databases of users and groups for the names of the owners and for nothing else:
what is told of a process is the same with all databases, up to the names that they know. -/
def Source.NamesOwners (source : Source κ) (withDatabases : κ → Database → Database → κ) : Prop :=
  ∀ pid release (host : Host κ),
    ∃ (told : Except Abort (Option Attributes)) (user group : Option UInt32), ∀ users groups,
      ((source.attributes pid release).on
          { host with kernel := withDatabases host.kernel users groups }).1 =
        Option.map (fun a =>
          { a with user := user.bind (user? users), group := group.bind (group? groups) }) <$> told

/-- A system with other databases of users and groups. -/
def Linux.withDatabases (kernel : Linux.Kernel) (users groups : Database) : Linux.Kernel :=
  { kernel with users, groups }

def Darwin.withDatabases (kernel : Darwin.Kernel) (users groups : Database) : Darwin.Kernel :=
  { kernel with users, groups }

theorem Linux.source_namesOwners : Linux.source.NamesOwners Linux.withDatabases := by
  intro pid release host
  let readings := host.kernel.tree.readings pid
  let status := Listing.ofText (readings.status.getD [])
  by_cases hCrossed : host.kernel.tree.Crossed pid
  case pos =>
    refine ⟨.error .crossedParentheses, none, none, fun users groups => ?_⟩
    let other : Host Kernel := { host with kernel := withDatabases host.kernel users groups }
    exact (@attributes_crossed other pid hCrossed release other (.refl other)).1
  case neg =>
    obtain ⟨core, hCore⟩ := exists_attributes_eq pid (Tree.not_crossed_of_readings hCrossed)
      readings.status host.kernel
    refine ⟨.ok (core.map ((readings.additions [] []).complete (commandOf readings.stat))),
      narrowId? (status.number "Uid"), narrowId? (status.number "Gid"), fun users groups => ?_⟩
    let other : Host Kernel := { host with kernel := withDatabases host.kernel users groups }
    have hOther := hCore release other rfl rfl ⟨rfl, rfl, rfl⟩
    refine hOther.trans (congrArg Except.ok ?_)
    rw [Option.map_map]
    refine congrArg (Option.map · core) (funext fun a => ?_)
    simp only [Function.comp_apply, Readings.additions, Additions.complete, ownerOf]
    rfl

theorem Darwin.source_namesOwners : Darwin.source.NamesOwners Darwin.withDatabases := by
  intro pid release host
  refine ⟨.ok ((found (taskRecord pid) host).map fun record =>
      record.attributes host.kernel.ticks (additions pid release record host)),
    (found (taskRecord pid) host).map (·.userId), (found (taskRecord pid) host).map (·.groupId),
    fun users groups => ?_⟩
  let other : Host Kernel := { host with kernel := withDatabases host.kernel users groups }
  have hAsked {α : Type} {call : Call} {attempt : Attempt Kernel α} (hAsks : Asks call attempt) :
      found attempt other = found attempt host :=
    hAsks.found_eq rfl
  have hTicks : other.kernel.ticks = host.kernel.ticks := Kernel.ticks_congr rfl rfl
  have hUsers : other.kernel.users = users := rfl
  have hGroups : other.kernel.groups = groups := rfl
  refine (attributes_on pid release other).trans (congrArg Except.ok ?_)
  rw [hAsked (asks_taskRecord pid), hTicks]
  cases found (taskRecord pid) host with
  | none => rfl
  | some record =>
      simp [additions, hAsked (asks_processPath pid), hAsked (asks_workingDirectory pid),
        hAsked (asks_diskUsage pid release), TaskRecord.attributes, hUsers, hGroups]

/-- A name is asked for with buffers of 1024 bytes, of twice that, and so on, in eleven calls at most.
The first reply that does not complain of the buffer decides, or else the reply for the buffer of one
mebibyte: the call has failed with its code, there is no name, or there is one. A name that fits into
that buffer is found. A failure costs a caller nothing but the name, and a source, whichever databases
it has, nothing but the names of the owners. -/
theorem owners_named_within_limit (call : String) (query : Nat → Reply) :
    (∃ retries ≤ 10,
      (∀ k < retries, (query (1024 * 2 ^ k)).code = bufferTooSmall) ∧
      ((query (1024 * 2 ^ retries)).code ≠ bufferTooSmall ∨ 1024 * 2 ^ retries = 2 ^ 20) ∧
      (lookUpWith call (recorded query) .initial).run [] =
        (lookUp call query, (List.range (retries + 1)).map (1024 * 2 ^ ·)) ∧
      Tells call (query (1024 * 2 ^ retries)) (lookUp call query)) ∧
    (∀ name need, (∀ size < need, (query size).code = bufferTooSmall) →
      (∀ size, need ≤ size → query size = ⟨0, some (some name)⟩) →
      lookUp call query =
        if need ≤ 2 ^ 20 then .ok (some (Text.cString name))
        else .error (.native call bufferTooSmall)) ∧
    (∀ id, ∃ database : Database, database.reply id = query) ∧
    (∀ (κ : Type) (database : Database) (id : UInt32) (host : Host κ),
      (∀ name, lookUp "getpwuid_r" (database.reply id) = .ok name →
        (userName database id).on host = (.ok name, host)) ∧
      (∀ failure, lookUp "getpwuid_r" (database.reply id) = .error failure →
        (userName database id).on host =
          (.ok none, { host with journal := .userUnknown id failure :: host.journal })) ∧
      (∀ name, lookUp "getgrgid_r" (database.reply id) = .ok name →
        (groupName database id).on host = (.ok name, host)) ∧
      ∀ failure, lookUp "getgrgid_r" (database.reply id) = .error failure →
        (groupName database id).on host =
          (.ok none, { host with journal := .groupUnknown id failure :: host.journal })) ∧
    Linux.source.NamesOwners Linux.withDatabases ∧
    Darwin.source.NamesOwners Darwin.withDatabases := by
  have hLimit : maxSize = 2 ^ 20 := by decide
  refine ⟨?_, ?_, fun id => ⟨_, reply_answering id query⟩, ?_, Linux.source_namesOwners,
    Darwin.source_namesOwners⟩
  · obtain ⟨retries, hDecides, hRun, hFound⟩ := exists_lookUp call query
    have hLast : (query (1024 * 2 ^ retries)).code ≠ bufferTooSmall ∨
        1024 * 2 ^ retries = 2 ^ 20 :=
      hDecides.last.imp_right fun hLargest => (hDecides.size_le.antisymm hLargest).trans hLimit
    exact ⟨retries, hDecides.retries_le, hDecides.earlier, hLast, hRun,
      hFound ▸ tells_settle call (query (1024 * 2 ^ retries))⟩
  · intro name need hSmall hFits
    rw [← hLimit]
    exact lookUp_of_need call hSmall hFits
  · intro κ database id host
    obtain ⟨hUser, hUserless⟩ :=
      nameOrNote_on "getpwuid_r" (database.reply id) (.userUnknown id) host
    obtain ⟨hGroup, hGroupless⟩ :=
      nameOrNote_on "getgrgid_r" (database.reply id) (.groupUnknown id) host
    exact ⟨hUser, hUserless, hGroup, hGroupless⟩

/-- A name that needs a buffer of just one mebibyte, and one that needs a byte more. -/
theorem owners_named_within_limit_edge :
    let query need : Nat → Reply := Database.reply [(0, .named [114, 111, 111, 116] need)] 0
    lookUp "getgrgid_r" (query (2 ^ 20)) = .ok (some "root") ∧
      lookUp "getgrgid_r" (query (2 ^ 20 + 1)) = .error (.native "getgrgid_r" 34) := by
  intro query
  have hSmall : ∀ need, ∀ size < need, (query need size).code = bufferTooSmall :=
    fun need size hLess => congrArg Reply.code (if_pos (.inl hLess))
  have hFits : ∀ need, 5 ≤ need → ∀ size, need ≤ size →
      query need size = ⟨0, some (some [114, 111, 111, 116])⟩ :=
    fun need hNeed size hSize => if_neg (by simp; omega)
  have hText : Text.cString [114, 111, 111, 116] = "root" := by decide
  obtain ⟨-, hFound, -⟩ := owners_named_within_limit "getgrgid_r" (query (2 ^ 20))
  obtain ⟨-, hMissed, -⟩ := owners_named_within_limit "getgrgid_r" (query (2 ^ 20 + 1))
  rw [hFound _ _ (hSmall _) (hFits _ (by decide)), hMissed _ _ (hSmall _) (hFits _ (by decide)),
    if_pos (Nat.le_refl _), if_neg (Nat.not_succ_le_self _), hText]
  exact ⟨rfl, rfl⟩

end ProcessCensus
