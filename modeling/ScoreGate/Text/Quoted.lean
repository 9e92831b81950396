import ScoreGate.Text.Lines

/-!
# Quoted text

The form in which messages show a text exactly: between single quotes, or between double quotes when the text holds a
single quote and no double one; the chosen quote and the backslash are marked by a backslash, and characters without
a visible form are shown by their code.
-/

namespace ScoreGate

/-- The hexadecimal digits of a number in lower case, zeros before them up to a width. -/
def hexText (width n : Nat) : List Char := padZeros width (Nat.toDigits 16 n)

def quotedChar (quote c : Char) : List Char :=
  let n := c.toNat
  if c = quote ∨ c = '\\' then ['\\', c]
  else if c = '\t' then ['\\', 't']
  else if c = '\n' then ['\\', 'n']
  else if c = '\r' then ['\\', 'r']
  else if isHidden c then
    if n < 0x100 then '\\' :: 'x' :: hexText 2 n
    else if n < 0x10000 then '\\' :: 'u' :: hexText 4 n
    else '\\' :: 'U' :: hexText 8 n
  else [c]

/-- The quote put around a text. -/
def quoteFor (cs : List Char) : Char :=
  if cs.contains '\'' && !cs.contains '"' then '"' else '\''

def quoted (s : String) : String :=
  let cs := s.toList
  let quote := quoteFor cs
  String.ofList (quote :: cs.flatMap (quotedChar quote) ++ [quote])

end ScoreGate
