import ScoreGate.Text.HiddenRanges
import ScoreGate.Text.LowerRuns
import ScoreGate.Text.WidthRanges
import ScoreGate.Text.WordRanges

/-!
# Classes of characters

Blanks, digits, word characters, small letters, characters with no visible form, and display widths.  The ASCII part of every
class is written out; the rest is looked up in a table of ranges.
-/

namespace ScoreGate

/-- Membership of a code point in a list of ranges with both ends included. -/
def inRanges (rs : List (Nat × Nat)) (n : Nat) : Bool :=
  rs.any fun r => r.1 ≤ n && n ≤ r.2

/-! ### Blanks -/

/-- Blanks beyond ASCII: the next-line control and the space separators. -/
def isWideBlank (c : Char) : Bool :=
  let n := c.toNat
  n == 0x85 || n == 0xa0 || n == 0x1680 || (0x2000 ≤ n && n ≤ 0x200a) || n == 0x2028 || n == 0x2029 ||
    n == 0x202f || n == 0x205f || n == 0x3000

/-- White space: the layout controls, the four information separators, and the blanks beyond ASCII. -/
def isBlank (c : Char) : Bool :=
  let n := c.toNat
  (0x09 ≤ n && n ≤ 0x0d) || (0x1c ≤ n && n ≤ 0x20) || isWideBlank c

/-- White space that may stand around a number: the information separators may not. -/
def isNumberBlank (c : Char) : Bool :=
  let n := c.toNat
  (0x09 ≤ n && n ≤ 0x0d) || n == 0x20 || isWideBlank c

/-! ### Digits -/

/-- The zeros of the decimal digit runs beyond ASCII; each run has ten consecutive digits. -/
def digitZeros : List Nat := [
  0x660, 0x6f0, 0x7c0, 0x966, 0x9e6, 0xa66, 0xae6, 0xb66, 0xbe6, 0xc66, 0xce6, 0xd66, 0xde6, 0xe50, 0xed0,
  0xf20, 0x1040, 0x1090, 0x17e0, 0x1810, 0x1946, 0x19d0, 0x1a80, 0x1a90, 0x1b50, 0x1bb0, 0x1c40, 0x1c50,
  0xa620, 0xa8d0, 0xa900, 0xa9d0, 0xa9f0, 0xaa50, 0xabf0, 0xff10, 0x104a0, 0x10d30, 0x11066, 0x110f0, 0x11136,
  0x111d0, 0x112f0, 0x11450, 0x114d0, 0x11650, 0x116c0, 0x11730, 0x118e0, 0x11950, 0x11c50, 0x11d50, 0x11da0,
  0x16a60, 0x16ac0, 0x16b50, 0x1d7ce, 0x1d7d8, 0x1d7e2, 0x1d7ec, 0x1d7f6, 0x1e140, 0x1e2f0, 0x1e950, 0x1fbf0]

/-- The value of a decimal digit of any script. -/
def digitValue? (c : Char) : Option Nat :=
  let n := c.toNat
  if c.isDigit then some (n - 0x30)
  else (digitZeros.find? fun z => z ≤ n && n < z + 10).map (n - ·)

/-! ### Words -/

/-- Letters, numerals and the underscore. -/
def isWordChar (c : Char) : Bool :=
  if c.toNat < 0x80 then c.isAlphanum || c == '_'
  else inRanges letterOrNumeralRanges c.toNat

/-! ### Small letters -/

/-- The small letters of a character; all but one have a single one. -/
def lowerOf (c : Char) : List Char :=
  let n := c.toNat
  if n < 0x80 then [c.toLower]
  else if n = 0x130 then ['i', '\u0307']
  else [((lowerRuns.findSome? (·.lowerAt? n)).map Char.ofNat).getD c]

/-- A text in small letters, after a word character or not.  A capital sigma at the end of a word has a small letter of
its own. -/
def lowercaseFrom : Bool → List Char → List Char
  | _, [] => []
  | afterWordChar, c :: cs =>
      if c = 'Σ' && afterWordChar && !cs.head?.any isWordChar then 'ς' :: lowercaseFrom true cs
      else lowerOf c ++ lowercaseFrom (isWordChar c) cs

/-- A text in small letters. -/
def lowercase (cs : List Char) : List Char := lowercaseFrom false cs

/-! ### Visibility -/

/-- Characters that quoted text shows by their code. -/
def isHidden (c : Char) : Bool :=
  let n := c.toNat
  if n < 0x80 then n < 0x20 || n == 0x7f else inRanges hiddenRanges n

/-- The number of screen columns a character fills. -/
def columnsOf (c : Char) : Nat :=
  let n := c.toNat
  if n < 0x80 then (if n < 0x20 || n == 0x7f then 0 else 1)
  else if n < 0xa0 then 0
  else if inRanges zeroWidthRanges n then 0
  else if inRanges wideRanges n then 2
  else 1

/-- The number of screen columns a text fills. -/
def columns (cs : List Char) : Nat :=
  cs.foldr (fun c n => columnsOf c + n) 0

end ScoreGate
