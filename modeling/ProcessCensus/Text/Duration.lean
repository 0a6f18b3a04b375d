/-!
Spans of time in words. The unit is the largest of seconds and milliseconds that the span fills; an
empty span is written in nanoseconds.
-/

namespace ProcessCensus.Text

/-- The three digits of a number below a thousand, without its trailing zeros. -/
def thousandths (n : Nat) : List Char :=
  let digits := [n / 100 % 10, n / 10 % 10, n % 10]
  (digits.reverse.dropWhile (· == 0)).reverse.map Nat.digitChar

/-- A span of milliseconds. -/
def duration (milliseconds : Nat) : String :=
  if milliseconds = 0 then "0ns"
  else if milliseconds < 1000 then s!"{milliseconds}ms"
  else if milliseconds % 1000 = 0 then s!"{milliseconds / 1000}s"
  else toString (milliseconds / 1000) ++ "." ++ String.ofList (thousandths (milliseconds % 1000)) ++ "s"

end ProcessCensus.Text
