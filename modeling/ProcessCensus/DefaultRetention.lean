import ProcessCensus.Memo.Basic
import ProcessCensus.Settings

/-!
The time to live of memos that name none of their own: the configured one. It is itself kept for a
minute, so that the settings are not read again at every use.
-/

namespace ProcessCensus

/-- The variables that settings come from, the clock that expiry goes by, and the retention last
read. -/
structure DefaultRetention where
  vars : Variables
  clock : Nat
  memo : Memo (Option Nat)

namespace DefaultRetention

/-- Milliseconds after which the settings are read again. -/
def refreshInterval : Nat := 60000

/-- Nothing read yet, and no variable set. -/
def start : DefaultRetention :=
  { vars := [], clock := 0, memo := .unfilled (some refreshInterval) }

/-- Sets a variable, or removes it. -/
def setVariable (state : DefaultRetention) (key : String) (value : Option Bytes) :
    DefaultRetention :=
  let others := state.vars.filter (·.1 != key)
  { state with vars := (value.map (key, ·)).toList ++ others }

/-- The clock goes on. -/
def advance (state : DefaultRetention) (milliseconds : Nat) : DefaultRetention :=
  { state with clock := state.clock + milliseconds }

/-- The configured retention, read again if it was last read a minute ago or earlier. -/
def current : Run DefaultRetention (Option Nat) := do
  let state ← Run.kernel
  let supplier : Run DefaultRetention (Option Nat) := do
    return (← Settings.load state.vars).retention
  let (retention, memo) ← state.memo.obtain state.clock supplier
  Run.call fun state => ((), { state with memo })
  return retention

/-- A memo with the configured retention as its time to live. -/
def newMemo {α : Type} : Run DefaultRetention (Memo α) := do
  return .unfilled (← current)

end DefaultRetention

end ProcessCensus
