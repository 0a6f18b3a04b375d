import ProcessCensus.Failure
import ProcessCensus.Process.State
import ProcessCensus.Text.Blank
import ProcessCensus.Text.Numeral
import ProcessCensus.Text.Split

/-!
The status line of a process: its pid, its command name in parentheses, and then a state and many
numbers. The name is whatever the process chose, so it may hold spaces and parentheses.
-/

namespace ProcessCensus.Linux.Stat

/-- Positions of the fields that are used. -/
def nameField : Nat := 1
def stateField : Nat := 2
def parentField : Nat := 3
def minorFaultsField : Nat := 9
def majorFaultsField : Nat := 11
def userTicksField : Nat := 13
def kernelTicksField : Nat := 14
def priorityField : Nat := 17
def threadsField : Nat := 19
def startTicksField : Nat := 21
def virtualSizeField : Nat := 22
def residentPagesField : Nat := 23

/-- What stands before and after the last occurrence of `mark`. -/
def splitLast (mark : Char) (text : List Char) : Option (List Char × List Char) :=
  (Text.splitOnce mark text.reverse).map fun (after, before) => (before.reverse, after.reverse)

/-- The fields of a status line. The name reaches from the first opening to the last closing
parenthesis; a line that lacks one of them is taken as words. There is no way to read a line whose
closing parentheses all stand in front of the opening one. -/
def split? (line : List Char) : Option (List (List Char)) :=
  match Text.splitOnce '(' line with
  | none => some (Text.words line)
  | some (pid, rest) =>
    match splitLast ')' rest with
    | some (name, fields) => some (Text.trim pid :: name :: Text.words fields)
    | none => if pid.contains ')' then none else some (Text.words line)

/-- What is wrong with a field. -/
def malformed (index : Nat) : Failure :=
  .malformed "/proc/<pid>/stat" s!"field {index}"

/-- A field as an unsigned number. -/
def number (fields : List (List Char)) (index : Nat) : Except Failure UInt64 :=
  match (fields[index]?).bind (Text.unsigned? UInt64.size) with
  | some value => .ok (UInt64.ofNat value)
  | none => .error (malformed index)

/-- A field as a signed number, of which the lowest 32 bits are kept. -/
def integer (fields : List (List Char)) (index : Nat) : Except Failure Int32 :=
  match (fields[index]?).bind (Text.signed? Int64.size) with
  | some value => .ok (Int32.ofInt value)
  | none => .error (malformed index)

/-- The state that a letter stands for. -/
def stateOf (code : List Char) : RunState :=
  match code with
  | ['R'] => .running
  | ['S'] => .sleeping
  | ['I'] => .sleeping
  | ['D'] => .waiting
  | ['Z'] => .zombie
  | ['T'] => .stopped
  | ['t'] => .stopped
  | _ => .other

/-- The state in a status line. -/
def state (fields : List (List Char)) : RunState :=
  stateOf ((fields[stateField]?).getD [])

end ProcessCensus.Linux.Stat
