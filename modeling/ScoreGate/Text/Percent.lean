/-!
# Percent quoting

A name written with the unreserved characters of addresses only: letters and digits of ASCII and `_`, `.`, `-`, `~`
stand for themselves, every other character is written as the bytes of its UTF-8 form, each as a percent sign and two
hexadecimal digits.
-/

namespace ScoreGate

/-- Characters that stand for themselves. -/
def isUnreserved (c : Char) : Bool :=
  c.isAlphanum || c == '_' || c == '.' || c == '-' || c == '~'

/-- A hexadecimal digit in upper case. -/
def hexDigit (n : Nat) : Char :=
  if n < 10 then Char.ofNat (0x30 + n) else Char.ofNat (0x37 + n)

/-- A percent sign and the two hexadecimal digits of a byte. -/
def percentByte (b : UInt8) : List Char :=
  ['%', hexDigit (b.toNat / 16), hexDigit (b.toNat % 16)]

def percentChar (c : Char) : List Char :=
  if isUnreserved c then [c] else (String.utf8EncodeChar c).flatMap percentByte

def percentQuoted (s : String) : String :=
  String.ofList (s.toList.flatMap percentChar)

end ScoreGate
