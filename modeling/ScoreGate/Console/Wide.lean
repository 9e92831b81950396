import ScoreGate.Console.Markup
import ScoreGate.Console.Table

/-!
# A wide console

The console that the program runs with: wide enough for every line, without colours, and able to encode every text.

* `Console.wide`: the console.
* `Screen.show`: what it writes.
-/

namespace ScoreGate

/-- A console that never fails to print. -/
abbrev Console.wide : Console where
  Text := List Char
  plain := String.ofList
  escape := Markup.escape
  read := Markup.render
  print _ := .ok ()

/-- What is written for something that is printed. -/
def Screen.show : Output (List Char) → String
  | .line text => line text
  | .rule title => rule title
  | .table columns rows => table columns rows
  | .document text => text ++ "\n"

end ScoreGate
