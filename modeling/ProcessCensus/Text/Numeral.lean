/-!
Decimal numerals in ASCII digits, read with the bounds of a machine word.
-/

namespace ProcessCensus.Text

/-- Whether the character is one of the ten ASCII digits. -/
def isAsciiDigit (c : Char) : Bool :=
  '0' ≤ c && c ≤ '9'

/-- The number that one ASCII digit stands for. -/
def digitValue (c : Char) : Nat :=
  c.toNat - '0'.toNat

/-- The number that a run of digits denotes after `value`, if it is less than `bound`. The run is
left as soon as it is not. -/
def valueBelow? (bound value : Nat) : List Char → Option Nat
  | [] => some value
  | c :: rest =>
    let next := value * 10 + digitValue c
    if next < bound then valueBelow? bound next rest else none

/-- The value of one or more ASCII digits, if it is less than `bound`. -/
def natural? (bound : Nat) (text : List Char) : Option Nat :=
  if !text.isEmpty && text.all isAsciiDigit then valueBelow? bound 0 text else none

/-- The text without one leading plus sign. -/
def dropPlus : List Char → List Char
  | '+' :: rest => rest
  | text => text

/-- A numeral with an optional plus sign whose value fits in an unsigned word with `size` values. -/
def unsigned? (size : Nat) (text : List Char) : Option Nat :=
  natural? size (dropPlus text)

/-- A numeral with an optional sign whose value fits in a signed word with `size` values. -/
def signed? (size : Nat) : List Char → Option Int
  | '-' :: rest =>
    (natural? (size / 2 + 1) rest).map fun value => -(value : Int)
  | text => (natural? (size / 2) (dropPlus text)).map fun value => (value : Int)

end ProcessCensus.Text
