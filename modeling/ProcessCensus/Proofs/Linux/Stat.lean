import ProcessCensus.Linux.Stat
import ProcessCensus.Proofs.Text.Blank
import ProcessCensus.Proofs.Text.Split

/-!
Status lines, written down and read. The command name may be any text: its end is the last closing
parenthesis of the line, because neither a state nor a number holds one.
-/

namespace ProcessCensus.Linux

open Text

/-- What the status line of a process says, in the order of its fields. -/
structure StatLine where
  pid : Int32
  command : List Char
  state : Char
  parent : Int32
  processGroup : Int
  session : Int
  terminal : Int
  terminalGroup : Int
  flags : Int
  minorFaults : UInt64
  childMinorFaults : Int
  majorFaults : UInt64
  childMajorFaults : Int
  userTicks : UInt64
  kernelTicks : UInt64
  childUserTicks : Int
  childKernelTicks : Int
  priority : Int32
  nice : Int
  threads : UInt64
  timer : Int
  startTicks : UInt64
  virtualSize : UInt64
  residentPages : UInt64
  /-- The fields after these, of which there may be any number. -/
  others : List Int
  state_visible : isBlank state = false
  state_ne : state ≠ ')'
  threads_ne : threads ≠ 0

namespace StatLine

/-- The fields after the state. -/
def numbers (line : StatLine) : List Int :=
  line.parent.toInt :: line.processGroup :: line.session :: line.terminal :: line.terminalGroup ::
    line.flags :: line.minorFaults.toNat :: line.childMinorFaults :: line.majorFaults.toNat ::
    line.childMajorFaults :: line.userTicks.toNat :: line.kernelTicks.toNat ::
    line.childUserTicks :: line.childKernelTicks :: line.priority.toInt :: line.nice ::
    line.threads.toNat :: line.timer :: line.startTicks.toNat :: line.virtualSize.toNat ::
    line.residentPages.toNat :: line.others

/-- The fields after the command name. -/
def tail (line : StatLine) : List (List Char) :=
  [line.state] :: line.numbers.map numeral

/-- The line, with fields separated by single spaces. -/
def render (line : StatLine) : List Char :=
  numeral line.pid.toInt ++ ' ' :: '(' :: line.command ++ ')' :: ' ' :: [' '].intercalate line.tail

/-- All fields. -/
def fields (line : StatLine) : List (List Char) :=
  numeral line.pid.toInt :: line.command :: line.tail

variable (line : StatLine)

theorem isWord_of_mem_tail {field : List Char} (hMem : field ∈ line.tail) : IsWord field := by
  rcases List.mem_cons.mp hMem with rfl | hNumber
  · exact ⟨List.cons_ne_nil _ _, by simpa using line.state_visible⟩
  · obtain ⟨n, -, rfl⟩ := List.mem_map.mp hNumber
    exact isWord_numeral n

theorem parenthesis_notMem_numeral (n : Int) : '(' ∉ numeral n ∧ ')' ∉ numeral n := by
  constructor
  all_goals
    intro hMem
    rcases mem_numeral hMem with hDigit | hSign
    · cases hDigit
    · cases hSign

theorem parenthesis_notMem_tail {field : List Char} (hMem : field ∈ line.tail) : ')' ∉ field := by
  rcases List.mem_cons.mp hMem with rfl | hNumber
  · simpa using line.state_ne.symm
  · obtain ⟨n, -, rfl⟩ := List.mem_map.mp hNumber
    exact (parenthesis_notMem_numeral n).2

end StatLine

namespace Stat

theorem splitLast_append_cons (before : List Char) {mark : Char} {after : List Char}
    (hFree : mark ∉ after) : splitLast mark (before ++ mark :: after) = some (before, after) := by
  have hReverse : (before ++ mark :: after).reverse = after.reverse ++ mark :: before.reverse := by
    simp
  rw [splitLast, hReverse, splitOnce_append_cons (by simpa using hFree)]
  simp

theorem splitLast_eq_none_iff {mark : Char} {text : List Char} :
    splitLast mark text = none ↔ mark ∉ text := by
  rw [splitLast, Option.map_eq_none_iff, splitOnce_eq_none_iff, List.mem_reverse]

/-- The line has parentheses of both kinds, but no closing one behind the first opening one. -/
def Crossed (line : List Char) : Prop :=
  ∃ before after, line = before ++ '(' :: after ∧ '(' ∉ before ∧ ')' ∈ before ∧ ')' ∉ after

/-- Crossed lines are the only ones that cannot be taken apart. -/
theorem split?_eq_none_iff {line : List Char} : split? line = none ↔ Crossed line := by
  cases hOnce : splitOnce '(' line with
  | none =>
      have hFree := splitOnce_eq_none_iff.mp hOnce
      rw [split?, hOnce]
      constructor
      · intro hNone
        cases hNone
      · rintro ⟨before, after, rfl, -⟩
        exact absurd (List.mem_append_right before List.mem_cons_self) hFree
  | some parts =>
      obtain ⟨pid, rest⟩ := parts
      obtain ⟨hFree, rfl⟩ := splitOnce_eq_some_iff.mp hOnce
      have hCrossed : Crossed (pid ++ '(' :: rest) ↔ ')' ∈ pid ∧ ')' ∉ rest := by
        constructor
        · rintro ⟨before, after, hLine, hBefore, hPid, hRest⟩
          have hSame := (splitOnce_eq_some_iff.mpr ⟨hBefore, hLine⟩).symm.trans hOnce
          obtain ⟨rfl, rfl⟩ := Prod.mk.inj (Option.some.inj hSame)
          exact ⟨hPid, hRest⟩
        · rintro ⟨hPid, hRest⟩
          exact ⟨pid, rest, rfl, hFree, hPid, hRest⟩
      rw [hCrossed, split?, hOnce, ← splitLast_eq_none_iff]
      cases hLast : splitLast ')' rest <;> simp [hLast]

/-- The first opening and the last closing parenthesis enclose the name. -/
theorem split?_eq {before name after : List Char} (hBefore : '(' ∉ before) (hAfter : ')' ∉ after) :
    split? (before ++ '(' :: (name ++ ')' :: after)) = some (trim before :: name :: words after) := by
  rw [split?, splitOnce_append_cons hBefore]
  simp only [splitLast_append_cons _ hAfter]

/-- Whatever the command name is, and whatever white space the line ends with, the fields come
back. -/
theorem split?_render (line : StatLine) {ending : List Char}
    (hEnding : ending.all isBlank = true) :
    split? (line.render ++ ending) = some line.fields := by
  have hBlank := List.all_eq_true.mp hEnding
  have hPid : '(' ∉ numeral line.pid.toInt ++ [' '] := by
    simp [(StatLine.parenthesis_notMem_numeral _).1]
  have hTail : ')' ∉ ' ' :: [' '].intercalate line.tail ++ ending := by
    have hFields : ')' ∉ [' '].intercalate line.tail :=
      notMem_intercalate (by decide) fun _ => line.parenthesis_notMem_tail
    have hBlanks : ')' ∉ ending := fun hMem => absurd (hBlank _ hMem) (by decide)
    simp [hFields, hBlanks]
  have hLine : line.render ++ ending = (numeral line.pid.toInt ++ [' ']) ++ '(' ::
      (line.command ++ ')' :: (' ' :: [' '].intercalate line.tail ++ ending)) := by
    simp [StatLine.render]
  have hTrim : trim (numeral line.pid.toInt ++ [' ']) = numeral line.pid.toInt :=
    @IsWord.trim [] _ [' '] (isWord_numeral _) (by simp) (List.forall_mem_singleton.mpr (by decide))
  rw [hLine, split?_eq hPid hTail, hTrim, List.cons_append, words_cons (by decide),
    words_append_of_blank _ hBlank, words_intercalate fun _ => line.isWord_of_mem_tail]
  rfl

theorem number_eq {fields : List (List Char)} {index : Nat} {n : UInt64}
    (hField : fields[index]? = some (numeral n.toNat)) : number fields index = .ok n := by
  simp [number, hField, unsigned?_numeral n.toNat_lt_size]

theorem integer_eq {fields : List (List Char)} {index : Nat} {n : Int32}
    (hField : fields[index]? = some (numeral n.toInt)) : integer fields index = .ok n := by
  have hLow := n.le_toInt
  have hHigh := n.toInt_lt
  have hRead : signed? Int64.size (numeral n.toInt) = some n.toInt :=
    signed?_numeral (by simp [Int64.size]; omega) (by simp [Int64.size]; omega)
  simp [integer, hField, hRead]

theorem stateOf_singleton (letter : Char) :
    stateOf [letter] =
      match letter with
      | 'R' => .running
      | 'S' | 'I' => .sleeping
      | 'D' => .waiting
      | 'Z' => .zombie
      | 'T' | 't' => .stopped
      | _ => .other := by
  unfold stateOf
  split <;> split <;> simp_all

/-- Every number stands where it is looked for. -/
theorem numbers_eq (line : StatLine) :
    integer line.fields parentField = .ok line.parent ∧
      number line.fields minorFaultsField = .ok line.minorFaults ∧
      number line.fields majorFaultsField = .ok line.majorFaults ∧
      number line.fields userTicksField = .ok line.userTicks ∧
      number line.fields kernelTicksField = .ok line.kernelTicks ∧
      integer line.fields priorityField = .ok line.priority ∧
      number line.fields threadsField = .ok line.threads ∧
      number line.fields startTicksField = .ok line.startTicks ∧
      number line.fields virtualSizeField = .ok line.virtualSize ∧
      number line.fields residentPagesField = .ok line.residentPages :=
  ⟨integer_eq rfl, number_eq rfl, number_eq rfl, number_eq rfl, number_eq rfl, integer_eq rfl,
    number_eq rfl, number_eq rfl, number_eq rfl, number_eq rfl⟩

end Stat

end ProcessCensus.Linux
