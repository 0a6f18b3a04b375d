import ProcessCensus.Text.Blank
import ProcessCensus.Text.Numeral
import ProcessCensus.Text.Split

/-!
Files with a key, a colon and a value on each line.
-/

namespace ProcessCensus.Linux

/-- Keys with their values, in the order of the lines. -/
abbrev Listing := List (List Char × List Char)

namespace Listing

/-- The lines of a file that have a colon. -/
def ofText (text : List Char) : Listing :=
  (Text.lines text).filterMap fun line =>
    (Text.splitOnce ':' line).map fun (key, value) => (key, Text.trim value)

/-- The value of a key. Of several lines with one key the last counts. -/
def get? (listing : Listing) (key : String) : Option (List Char) :=
  listing.reverse.lookup key.toList

/-- The first word of a value as a number, and 0 if it is none. -/
def number (listing : Listing) (key : String) : UInt64 :=
  let word := (listing.get? key).bind fun value => (Text.words value).head?
  match word.bind (Text.unsigned? UInt64.size) with
  | some value => UInt64.ofNat value
  | none => 0

/-- A whole value as a pid. -/
def pid? (listing : Listing) (key : String) : Option Int32 :=
  ((listing.get? key).bind (Text.signed? Int32.size)).map Int32.ofInt

end Listing

end ProcessCensus.Linux
