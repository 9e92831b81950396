import ScoreGate.Text.Character
import ScoreGate.Text.Lines

/-!
# The screen

Output is text in lines; the screen is wide enough for every line.  Tabs go to the next multiple of eight columns, and a
rule is a line across the whole screen with a title in its middle.

* `Screen.line`, `Screen.rule`: what prints as lines.
* `Screen.linesOf`: printed text as lines without the blanks at their ends.
-/

namespace ScoreGate.Screen

/-- The number of columns. -/
def width : Nat := 300

def tabStop : Nat := 8

/-- A line with its tabs as spaces, beginning at a column. -/
def expandTabs : Nat → List Char → List Char
  | _, [] => []
  | column, c :: cs =>
      if c = '\t' then
        let gap := tabStop - column % tabStop
        List.replicate gap ' ' ++ expandTabs (column + gap) cs
      else c :: expandTabs (column + columnsOf c) cs

/-- A text with the tabs of each of its lines as spaces. -/
def expandLines (cs : List Char) : List Char :=
  joinWith ['\n'] ((lines cs).map (expandTabs 0))

/-- What a text prints, with a line feed after it. -/
def line (cs : List Char) : String := String.ofList (expandLines cs ++ ['\n'])

/-- A line across the screen with a title. -/
def rule (title : List Char) : String :=
  let left := (width - columns title) / 2 - 1
  let head := List.replicate left '─' ++ ' ' :: title ++ [' ']
  String.ofList (head ++ List.replicate (width - columns head) '─') ++ "\n"

/-- Printed text as lines, without the blanks at their ends. -/
def linesOf (printed : String) : List String :=
  (lines printed.toList).map fun l => String.ofList (dropEndWhile isBlank l)

end ScoreGate.Screen
