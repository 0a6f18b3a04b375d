import ProcessCensus.Text.Hidden

/-!
Text between double quotes, with escapes for the quote, the backslash, line ends, tabs, the null
character and every character that would not be visible.
-/

namespace ProcessCensus.Text

/-- The escape of a character by its code point: lower-case hexadecimal without leading zeros. -/
def escapeCode (c : Char) : List Char :=
  "\\u\x7b".toList ++ Nat.toDigits 16 c.toNat ++ ['\x7d']

/-- A character as it stands in a quoted text. -/
def quoteChar (c : Char) : List Char :=
  match c with
  | '\x00' => ['\\', '0']
  | '\t' => ['\\', 't']
  | '\r' => ['\\', 'r']
  | '\n' => ['\\', 'n']
  | '"' => ['\\', '"']
  | '\\' => ['\\', '\\']
  | c => if isHidden c then escapeCode c else [c]

/-- The text between double quotes. -/
def quoted (text : String) : String :=
  String.ofList ('"' :: text.toList.flatMap quoteChar ++ ['"'])

end ProcessCensus.Text
