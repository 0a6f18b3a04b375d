import ProcessCensus.Text.Describe

/-!
Values that are kept for a time to live. This module has the state of a memo and the operations that
are atomic on it, and the way in which an undisturbed caller gets a value. How several callers get
along is in `ProcessCensus.Memo.Machine`.
-/

namespace ProcessCensus

/-- A published value. Times are milliseconds of a clock that never goes back; without a time the
value never expires. -/
structure Slot (α : Type) where
  value : α
  expiresAt : Option Nat
deriving DecidableEq

/-- Whether the value has not expired. At the very moment of its expiry it has. -/
def Slot.isFresh {α : Type} (slot : Slot α) (now : Nat) : Bool :=
  match slot.expiresAt with
  | none => true
  | some expiry => now < expiry

/-- A value kept for a time to live of some milliseconds, or for good. Nothing is published until
somebody asks. -/
structure Memo (α : Type) where
  ttl : Option Nat
  slot : Option (Slot α)
deriving DecidableEq

namespace Memo

variable {α : Type}

/-- A memo that has not published anything. -/
def unfilled (ttl : Option Nat) : Memo α :=
  { ttl, slot := none }

/-- A memo that keeps its value for good. -/
def forever : Memo α :=
  unfilled none

/-- A memo that has published a value for good. -/
def settled (value : α) : Memo α :=
  { ttl := none, slot := some { value, expiresAt := none } }

/-- The published value, if it has not expired. -/
def fresh? (memo : Memo α) (now : Nat) : Option α :=
  (memo.slot.filter (·.isFresh now)).map (·.value)

/-- The published value, expired or not. -/
def current? (memo : Memo α) : Option α :=
  memo.slot.map (·.value)

/-- The memo after a value has been published. Whether the clock can tell when it expires is for the
caller to see. -/
def publish (memo : Memo α) (now : Nat) (value : α) : Memo α :=
  { memo with slot := some { value, expiresAt := memo.ttl.map (now + ·) } }

/-- The memo with its published value expired. Without one nothing happens. -/
def expire (memo : Memo α) (now : Nat) : Memo α :=
  { memo with slot := memo.slot.map fun slot => { slot with expiresAt := some now } }

/-- What a caller gets whom no other disturbs, and the memo afterwards. The supplier is asked only
if no fresh value is published. The time to live has to be short enough for the clock to tell when
the value expires; how a longer one ends is in `ProcessCensus.Memo.Machine`. -/
def obtain {m : Type → Type} [Monad m] (memo : Memo α) (now : Nat) (supplier : m α) :
    m (α × Memo α) := do
  match memo.fresh? now with
  | some value => return (value, memo)
  | none =>
    let value ← supplier
    return (value, memo.publish now value)

/-- The memo in words. -/
def describe (memo : Memo α) : String :=
  Text.describePartly "Memoizer"
    [("ttl", Text.describeOption Text.duration memo.ttl),
     ("computed", Text.describeBool memo.slot.isSome)]

end Memo

end ProcessCensus
