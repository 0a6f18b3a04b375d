import ProcessCensus.Bytes

/-!
UTF-8. One reader serves both ways of decoding: it marks off the characters and the malformed
pieces of a byte string. Strict decoding refuses a malformed piece, lossy decoding puts the
replacement character in its place.
-/

namespace ProcessCensus.Text

/-- The character that stands for something undecodable. -/
def replacement : Char :=
  '\ufffd'

namespace Utf8

/-- What the reader may meet next: the first byte of a character, or a later byte between `low` and
`high`, with `owed` more to follow it and `value` read so far. -/
inductive Expect where
  | lead
  | tail (value owed low high : Nat)

/-- What a first byte settles: the marks it completes and what may follow it. The range of the
second byte shuts out overlong forms, surrogates and values past the last code point. -/
def afterLead (b : Nat) : List (Option Char) × Expect :=
  if b < 0x80 then ([some (Char.ofNat b)], .lead)
  else if b < 0xc2 then ([none], .lead)
  else if b < 0xe0 then ([], .tail (b - 0xc0) 0 0x80 0xbf)
  else if b < 0xf0 then
    ([], .tail (b - 0xe0) 1 (if b = 0xe0 then 0xa0 else 0x80) (if b = 0xed then 0x9f else 0xbf))
  else if b < 0xf5 then
    ([], .tail (b - 0xf0) 2 (if b = 0xf0 then 0x90 else 0x80) (if b = 0xf4 then 0x8f else 0xbf))
  else ([none], .lead)

/-- One byte. A byte that cannot continue the character ends a malformed piece and is read again as
a first byte. -/
def step : Expect → Nat → List (Option Char) × Expect
  | .lead, b => afterLead b
  | .tail value owed low high, b =>
    if low ≤ b ∧ b ≤ high then
      match owed with
      | 0 => ([some (Char.ofNat (value * 64 + (b - 0x80)))], .lead)
      | owed + 1 => ([], .tail (value * 64 + (b - 0x80)) owed 0x80 0xbf)
    else
      let (marks, expect) := afterLead b
      (none :: marks, expect)

/-- The marks of a byte string: a character, or `none` for each longest piece that starts like a
character and is none. A character cut off at the end is one such piece. -/
def scan : Expect → Bytes → List (Option Char)
  | .lead, [] => []
  | .tail .., [] => [none]
  | expect, b :: rest =>
    let (marks, next) := step expect b.toNat
    marks ++ scan next rest

/-- The text a byte string encodes, if it is well formed. -/
def decode? (bytes : Bytes) : Option (List Char) :=
  (scan .lead bytes).mapM id

/-- The text a byte string encodes, with the replacement character for each malformed piece. -/
def decodeLossy (bytes : Bytes) : List Char :=
  (scan .lead bytes).map (·.getD replacement)

/-- Lossy decoding to a string. -/
def text (bytes : Bytes) : String :=
  String.ofList (decodeLossy bytes)

/-- The bytes of one character. -/
def encodeChar (c : Char) : Bytes :=
  let n := c.toNat
  if n < 0x80 then [.ofNat n]
  else if n < 0x800 then [.ofNat (0xc0 + n / 64), .ofNat (0x80 + n % 64)]
  else if n < 0x10000 then
    [.ofNat (0xe0 + n / 4096), .ofNat (0x80 + n / 64 % 64), .ofNat (0x80 + n % 64)]
  else
    [.ofNat (0xf0 + n / 262144), .ofNat (0x80 + n / 4096 % 64), .ofNat (0x80 + n / 64 % 64),
      .ofNat (0x80 + n % 64)]

/-- The bytes of a text. -/
def encode (text : List Char) : Bytes :=
  text.flatMap encodeChar

end Utf8

/-- The text in front of the first zero byte, or in all the bytes without one, decoded lossily. -/
def cString (bytes : Bytes) : String :=
  Utf8.text (bytes.take (bytes.findIdx (· == 0)))

end ProcessCensus.Text
