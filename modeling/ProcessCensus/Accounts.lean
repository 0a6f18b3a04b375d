import ProcessCensus.Run
import ProcessCensus.Text.Utf8

/-!
Names of users and groups. The databases write a name into a buffer of the caller and complain if it
does not fit; then the buffer is doubled, up to a limit.
-/

namespace ProcessCensus.Accounts

/-- What a database answers for one size of buffer: an error code, 0 for success, and the entry it
found with its name, which may be missing. -/
structure Reply where
  code : Int32
  entry : Option (Option Bytes)
deriving DecidableEq

/-- The code for a buffer that is too small. -/
def bufferTooSmall : Int32 := 34

/-- The size at which a buffer grows no more: one mebibyte. -/
def maxSize : Nat := 1048576

/-- A buffer for a name, by its size. There is some room in it, so one of twice the size is larger. -/
structure Buffer where
  size : Nat
  size_pos : 0 < size

/-- The buffer to begin with. -/
def Buffer.initial : Buffer := ⟨1024, by decide⟩

/-- A buffer of twice the size. -/
def Buffer.doubled (buffer : Buffer) : Buffer :=
  ⟨2 * buffer.size, Nat.mul_pos (by decide) buffer.size_pos⟩

/-- What a final reply means: a failure, no entry or no name, or the name up to its zero byte. -/
def settle (call : String) (reply : Reply) : Except Failure (Option String) :=
  if reply.code ≠ 0 then .error (.native call reply.code)
  else .ok (reply.entry.bind fun name => name.map Text.cString)

/-- Asks with a buffer, and again with one twice as large as long as the name does not fit and the
buffer may grow. -/
def lookUpWith {m : Type → Type} [Monad m] (call : String) (query : Nat → m Reply)
    (buffer : Buffer) : m (Except Failure (Option String)) := do
  let reply ← query buffer.size
  if reply.code = bufferTooSmall ∧ buffer.size < maxSize then
    lookUpWith call query buffer.doubled
  else
    return settle call reply
termination_by maxSize - buffer.size
decreasing_by
  have hRoom := buffer.size_pos
  simp only [Buffer.doubled]
  omega

/-- The name that a database knows, where `query` tells what it answers for a size of buffer. -/
def lookUp (call : String) (query : Nat → Reply) : Except Failure (Option String) :=
  Id.run (lookUpWith call (fun size => pure (query size)) .initial)

/-- An entry of a database. -/
inductive Entry where
  /-- A name that needs a buffer of some size, and one in which it fits with a zero byte. -/
  | named (name : Bytes) (need : Nat)
  /-- An entry without a name. -/
  | nameless
  /-- No entry, but an error code. -/
  | failing (code : Int32)
  /-- An answer for each size of buffer, whatever it may be. -/
  | answering (reply : Nat → Reply)

/-- The entries of a database by their ids. -/
abbrev Database := List (UInt32 × Entry)

/-- What a database answers for an id and a size of buffer. -/
def Database.reply (database : Database) (id : UInt32) (size : Nat) : Reply :=
  match database.lookup id with
  | some (.named name need) =>
    if size < need ∨ size < name.length + 1 then ⟨bufferTooSmall, none⟩ else ⟨0, some (some name)⟩
  | some .nameless => ⟨0, some none⟩
  | some (.failing code) => ⟨code, none⟩
  | some (.answering reply) => reply size
  | none => ⟨0, none⟩

/-- The name that a database tells. A failure of the database is noted and counts as no name. -/
def nameOrNote {κ : Type} (call : String) (query : Nat → Reply) (notice : Failure → Notice) :
    Run κ (Option String) :=
  Attempt.recover (.ofExcept (lookUp call query)) fun failure => do
    Run.note (notice failure)
    return none

/-- The name of a user. -/
def userName {κ : Type} (users : Database) (id : UInt32) : Run κ (Option String) :=
  nameOrNote "getpwuid_r" (users.reply id) (.userUnknown id)

/-- The name of a group. -/
def groupName {κ : Type} (groups : Database) (id : UInt32) : Run κ (Option String) :=
  nameOrNote "getgrgid_r" (groups.reply id) (.groupUnknown id)

end ProcessCensus.Accounts
