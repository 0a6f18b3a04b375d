import ProcessCensus.Text.Utf8

/-!
UTF-16. A surrogate without its partner decodes to the replacement character.
-/

namespace ProcessCensus.Text

namespace Utf16

/-- Whether the unit is the first of a surrogate pair. -/
def isHigh (u : UInt16) : Bool :=
  0xd800 ≤ u && u < 0xdc00

/-- Whether the unit is the second of a surrogate pair. -/
def isLow (u : UInt16) : Bool :=
  0xdc00 ≤ u && u < 0xe000

/-- The character of a surrogate pair. -/
def pairChar (high low : UInt16) : Char :=
  Char.ofNat (0x10000 + (high.toNat - 0xd800) * 1024 + (low.toNat - 0xdc00))

/-- The text of a list of units, with the replacement character for each lone surrogate. -/
def decodeLossy : List UInt16 → List Char
  | [] => []
  | [u] => if isHigh u || isLow u then [replacement] else [Char.ofNat u.toNat]
  | u :: v :: rest =>
    if isHigh u then
      if isLow v then pairChar u v :: decodeLossy rest else replacement :: decodeLossy (v :: rest)
    else if isLow u then replacement :: decodeLossy (v :: rest)
    else Char.ofNat u.toNat :: decodeLossy (v :: rest)

/-- Lossy decoding to a string. -/
def text (units : List UInt16) : String :=
  String.ofList (decodeLossy units)

/-- The units of one character. -/
def encodeChar (c : Char) : List UInt16 :=
  let n := c.toNat
  if n < 0x10000 then [.ofNat n]
  else [.ofNat (0xd800 + (n - 0x10000) / 1024), .ofNat (0xdc00 + (n - 0x10000) % 1024)]

/-- The units of a text. -/
def encode (text : List Char) : List UInt16 :=
  text.flatMap encodeChar

end Utf16

/-- The text in front of the first zero unit, or in all the units without one, decoded lossily. -/
def wideString (units : List UInt16) : String :=
  Utf16.text (units.take (units.findIdx (· == 0)))

end ProcessCensus.Text
