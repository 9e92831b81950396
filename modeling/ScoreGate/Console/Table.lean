import ScoreGate.Console.Layout

/-!
# Tables on the screen

A table has columns with a heading and a least width, and rows of cells.  A column is as wide as its widest
cell asks, with a space on either side; the heading stands between heavy lines, the rows between light ones.  A row is as
high as its highest cell, and its cells begin at its top.
-/

namespace ScoreGate.Screen

/-- The lines of a frame: what stands at the left, between columns and at the right. -/
structure Frame where
  left : Char
  between : Char
  right : Char

def frameLine (f : Frame) (cells : List (List Char)) : List Char :=
  f.left :: joinWith [f.between] cells ++ [f.right, '\n']

/-- A line of the frame itself. -/
def ruleLine (f : Frame) (dash : Char) (widths : List Nat) : List Char :=
  frameLine f (widths.map fun w => List.replicate (w + 2) dash)

def rowLines (f : Frame) (columns : List (Side × Nat)) (row : List (List Char)) : List Char :=
  let cells := (columns.zip row).map fun (column, cell) => (column, fitLines column.1 column.2 cell)
  let height := (cells.map fun c => c.2.length).foldl Max.max 1
  (List.range height).flatMap fun i =>
    frameLine f (cells.map fun (column, ls) =>
      ' ' :: ls.getD i (List.replicate column.2 ' ') ++ [' '])

def table (columns : List Column) (rows : List (List (List Char))) : String :=
  let cells := columns.zipIdx.map fun (c, i) => c.heading.toList :: rows.map fun (row : List (List Char)) => row.getD i []
  let widths := (columns.zip cells).map fun (c, texts) => (texts.map askedWidth).foldl Max.max c.least
  let sides := (columns.map (·.side)).zip widths
  let row (i : Nat) : List (List Char) := cells.map (·.getD i [])
  String.ofList (
    ruleLine ⟨'┏', '┳', '┓'⟩ '━' widths ++
      rowLines ⟨'┃', '┃', '┃'⟩ sides (row 0) ++
      ruleLine ⟨'┡', '╇', '┩'⟩ '━' widths ++
      (List.range rows.length).flatMap (fun i => rowLines ⟨'│', '│', '│'⟩ sides (row (i + 1))) ++
      ruleLine ⟨'└', '┴', '┘'⟩ '─' widths)

end ScoreGate.Screen
