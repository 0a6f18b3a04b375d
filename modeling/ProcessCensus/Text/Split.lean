/-!
Cutting lists of characters at a separator: lines, the two sides of a mark, the last component of
a path.
-/

namespace ProcessCensus.Text

/-- The parts between occurrences of `mark`, given the part being read. There is always at least
one part. -/
def partsFrom {α : Type} [BEq α] (mark : α) (current : List α) : List α → List (List α)
  | [] => [current.reverse]
  | c :: rest =>
    if c == mark then current.reverse :: partsFrom mark [] rest
    else partsFrom mark (c :: current) rest

/-- The parts between occurrences of `mark`, empty ones included. -/
def parts {α : Type} [BEq α] (mark : α) (text : List α) : List (List α) :=
  partsFrom mark [] text

/-- What stands before and after the first occurrence of `mark`. -/
def splitOnce (mark : Char) : List Char → Option (List Char × List Char)
  | [] => none
  | c :: rest =>
    if c = mark then some ([], rest)
    else (splitOnce mark rest).map fun (before, after) => (c :: before, after)

/-- What stands after the last occurrence of `mark`, or the whole text without one. -/
def lastComponent (mark : Char) (text : List Char) : List Char :=
  (text.reverse.takeWhile (· != mark)).reverse

/-- A line without the carriage return that may end it. -/
def dropReturn (line : List Char) : List Char :=
  if line.getLast? = some '\r' then line.dropLast else line

/-- The lines of a text. A line ends with a line feed, or a carriage return and a line feed; a last
line without an end counts if it is not empty, and keeps a carriage return. -/
def lines (text : List Char) : List (List Char) :=
  let pieces := parts '\n' text
  let last := pieces.getLastD []
  pieces.dropLast.map dropReturn ++ (if last.isEmpty then [] else [last])

/-- The text with every trailing copy of `suffix` taken off, at most `times` of them. -/
def dropSuffixes (suffix : List Char) : Nat → List Char → List Char
  | 0, text => text
  | times + 1, text =>
    if suffix.isSuffixOf text then dropSuffixes suffix times (text.take (text.length - suffix.length))
    else text

end ProcessCensus.Text
