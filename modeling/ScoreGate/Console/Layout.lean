import ScoreGate.Console
import ScoreGate.Console.Screen

/-!
# Fitting text into a column

A column asks for the width of its widest line, where every line separator ends a line and a tab counts nothing.  The
text itself is broken at line feeds only, so a line can still be too wide: it is then broken between words, and a word
that is wider than the column ends in an ellipsis.

* `Screen.askedWidth`: the width a text asks for.
* `Screen.fitLines`: the lines of a text in a column.
-/

namespace ScoreGate.Screen

/-! ### Measuring -/

/-- The characters that end a line: the feeds and returns, the separators of files, groups and records, the next-line
control, and the separators of lines and paragraphs. -/
def isLineSeparator (c : Char) : Bool :=
  let n := c.toNat
  (0x0a ≤ n && n ≤ 0x0d) || (0x1c ≤ n && n ≤ 0x1e) || n = 0x85 || n = 0x2028 || n = 0x2029

/-- The width of the widest line, with some columns of the first one already filled. -/
def widestLine : Nat → List Char → Nat
  | filled, [] => filled
  | filled, c :: cs =>
      if isLineSeparator c then Max.max filled (widestLine 0 cs) else widestLine (filled + columnsOf c) cs

/-- The width a text asks for. -/
def askedWidth (cs : List Char) : Nat := widestLine 0 cs

/-! ### Words -/

/-- The words of a text, each with the blanks after it and the first one also with those before it.  Blanks alone are no
word. -/
def words : List Char → List (List Char)
  | [] => []
  | c :: cs =>
      match words cs with
      | [] => if isBlank c then [] else [c :: cs]
      | w :: ws =>
          if isBlank c || !w.head?.any isBlank then (c :: w) :: ws
          else (c :: w.takeWhile isBlank) :: w.dropWhile isBlank :: ws

/-- A line and the words after it, broken where the next word without its last blanks no longer fits. -/
def breakWords (width : Nat) (line : List Char) : List (List Char) → List (List Char)
  | [] => [line]
  | w :: ws =>
      if columns line + columns (dropEndWhile isBlank w) ≤ width then breakWords width (line ++ w) ws
      else line :: breakWords width w ws

def breakLine (width : Nat) (cs : List Char) : List (List Char) :=
  match words cs with
  | [] => [cs]
  | w :: ws => breakWords width w ws

/-! ### Filling -/

/-- A line without those blanks at its end that go beyond a number of characters. -/
def dropExcess (width : Nat) (l : List Char) : List Char :=
  l.take (l.length - Min.min (l.reverse.takeWhile isBlank).length (l.length - width))

/-- The part of a line before a width that lies within the line, looked for by halving between two positions.  A
character across the edge gives way to a space. -/
def cutBetween (width : Nat) (l : List Char) : Nat → Nat → Nat → List Char
  | 0, _, _ => l
  | fuel + 1, low, high =>
      let middle := (low + high) / 2
      let part := l.take (middle + 1)
      if columns part = width + 1 && columns (l.drop middle |>.take 1) = 2 then l.take middle ++ [' ']
      else if columns part = width then part
      else if columns part > width then cutBetween width l fuel low middle
      else cutBetween width l fuel middle high

/-- A line that is too wide, with an ellipsis at its end. -/
def shorten (width : Nat) (l : List Char) : List Char :=
  if columns l ≤ width then l else cutBetween (width - 1) l l.length 0 l.length ++ ['…']

/-- A line filled up to a width; on the right side the blanks at its end go. -/
def fill (side : Side) (width : Nat) (l : List Char) : List Char :=
  match side with
  | .left =>
      let l := shorten width l
      l ++ List.replicate (width - columns l) ' '
  | .right =>
      let l := shorten width (dropEndWhile isBlank l)
      List.replicate (width - columns l) ' ' ++ l

/-- The lines of a text in a column. -/
def fitLines (side : Side) (width : Nat) (cs : List Char) : List (List Char) :=
  (lines cs).flatMap fun l =>
    (breakLine width (expandTabs 0 l)).map fun piece => fill side width (dropExcess width piece)

end ScoreGate.Screen
