import ScoreGate.Document.Token

/-!
# Reading documents

The second step: one pass over the tokens with a stack of the lists and tables that are still open.  The pass keeps
what it expects next, so each token either fits or is the error; a name that occurs twice in a table keeps its first
place and its last value.
-/

namespace ScoreGate.Document

/-- A list or table that is still open, with what it holds so far; a list is kept last item first. -/
inductive Frame where
  | list (items : List Value)
  | table (entries : List (String × Value)) (key : String)

/-- What may come next. -/
inductive Expected where
  | value
  | firstItem
  | key
  | firstKey
  | colon
  | separator
  | nothing (result : Value)

/-- The open lists and tables, innermost first, and what may come next. -/
structure State where
  open_ : List Frame
  expected : Expected

/-- How many lists and tables may be open at once if nothing else is said. -/
def usualDepth : Nat := 980

def State.deliver (v : Value) : List Frame → State
  | [] => ⟨[], .nothing v⟩
  | .list items :: rest => ⟨.list (v :: items) :: rest, .separator⟩
  | .table entries key :: rest => ⟨.table (Value.setEntry key v entries) key :: rest, .separator⟩

def State.enter (depth : Nat) (frame : Frame) (expected : Expected) (frames : List Frame) : Except Fault State :=
  if depth ≤ frames.length then .error .tooDeep else .ok ⟨frame :: frames, expected⟩

/-- A value or an opening bracket where a value may stand. -/
def State.begin (depth : Nat) (frames : List Frame) : Token → Except Fault State
  | .atom v => .ok (State.deliver v frames)
  | .openList => State.enter depth (.list []) .firstItem frames
  | .openTable => State.enter depth (.table [] "") .firstKey frames
  | .bad fault => .error fault
  | _ => .error (.badValue .documentSyntax)

/-- One token, where at most `depth` lists and tables may be open. -/
def State.step (depth : Nat) (st : State) (t : Token) : Except Fault State :=
  match st.expected, t, st.open_ with
  | .value, t, frames => State.begin depth frames t
  | .firstItem, .closeList, .list items :: rest => .ok (State.deliver (.list items.reverse) rest)
  | .firstItem, t, frames => State.begin depth frames t
  | .separator, .closeList, .list items :: rest => .ok (State.deliver (.list items.reverse) rest)
  | .separator, .comma, .list items :: rest => .ok ⟨.list items :: rest, .value⟩
  | .firstKey, .closeTable, .table entries _ :: rest => .ok (State.deliver (.table entries) rest)
  | .firstKey, .atom (.text key), .table entries _ :: rest => .ok ⟨.table entries key :: rest, .colon⟩
  | .key, .atom (.text key), .table entries _ :: rest => .ok ⟨.table entries key :: rest, .colon⟩
  | .colon, .colon, frames => .ok ⟨frames, .value⟩
  | .separator, .closeTable, .table entries _ :: rest => .ok (State.deliver (.table entries) rest)
  | .separator, .comma, .table entries key :: rest => .ok ⟨.table entries key :: rest, .key⟩
  | _, _, _ => .error (.badValue .documentSyntax)

def ofTokens (depth : Nat) (ts : List Token) : Except Fault Value := do
  let st ← ts.foldlM (State.step depth) ⟨[], .value⟩
  match st.expected with
  | .nothing v => .ok v
  | _ => .error (.badValue .documentSyntax)

/-- The value that a text spells, in which at most `depth` lists and tables may stand one within another. -/
def read (depth : Nat) (s : String) : Except Fault Value := ofTokens depth (Token.all s.toList)

end ScoreGate.Document
