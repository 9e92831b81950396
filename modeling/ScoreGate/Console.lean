import ScoreGate.Fault

/-!
# Consoles

What commands print goes to a console, which reads markup, lays texts out and writes them.  Nothing is said here of how it
does that: a console is a parameter of everything that prints.

* `Output`: what commands print.
* `Console`: a console.
* `Console.styled`: marked-up text in a style.
-/

namespace ScoreGate

/-- Where the text of a column stands. -/
inductive Side where
  | left
  | right
  deriving DecidableEq, Repr

structure Column where
  heading : String
  side : Side
  least : Nat
  style : String
  deriving Repr

namespace Column

def onLeft (heading : String) (least : Nat) : Column := ⟨heading, .left, least, ""⟩

def onRight (heading style : String) : Column := ⟨heading, .right, 0, style⟩

end Column

/-- What is printed at once, with texts of some kind. -/
inductive Output (Text : Type) where
  | line (text : Text)
  /-- a line across the console with a title -/
  | rule (title : Text)
  | table (columns : List Column) (rows : List (List Text))
  /-- a text that is not laid out, and no markup -/
  | document (text : String)

namespace Output

variable {Text Other : Type}

def map (f : Text → Other) : Output Text → Output Other
  | .line text => .line (f text)
  | .rule title => .rule (f title)
  | .table columns rows => .table columns (rows.map (List.map f))
  | .document text => .document text

end Output

/-- What commands print on.  Reading markup fails where its tags do not fit, printing where a text cannot be encoded. -/
class Console where
  Text : Type
  /-- the characters of a text, without its styles -/
  plain : Text → String
  /-- the markup for a text that is to be shown as it is -/
  escape : String → String
  read : String → Except Failure Text
  print : Output Text → Except Failure Unit

namespace Console

/-- The markup for a marked-up text in a style. -/
def styled (style text : String) : String := "[" ++ style ++ "]" ++ text ++ "[/" ++ style ++ "]"

end Console

end ScoreGate
