import ScoreGate.Toml.Tables

/-!
# Reading TOML

A TOML document is a sequence of lines: entries, headings and comments.  Values may span lines; lists may hold
comments.  The result is the table of all entries.  How deeply values may stand one within another is bounded: every
value takes some of the room that the value around it leaves.

* `Toml.read`: the entries of a document.
-/

namespace ScoreGate.Toml

/-! ### Comments -/

/-- A comment, if one starts here; it ends before the line feed. -/
def dropComment (cs : List Char) : Except Fault (List Char) :=
  match cs with
  | '#' :: rest =>
      if (rest.takeWhile (· ≠ '\n')).any isControl then .error malformed else .ok (rest.dropWhile (· ≠ '\n'))
  | _ => .ok cs

/-- Spaces, line feeds and comments, at most `fuel` comments. -/
def dropFiller : Nat → List Char → Except Fault (List Char)
  | 0, cs => .ok cs
  | fuel + 1, cs =>
      match cs.dropWhile isSpaceOrLine with
      | '#' :: rest => do dropFiller fuel (← dropComment ('#' :: rest))
      | rest => .ok rest

/-! ### Keys -/

def isBareKeyChar (c : Char) : Bool := c.isAlphanum || c = '-' || c = '_'

/-- One name of a key: bare or between quotes. -/
def takeName (cs : List Char) : Except Fault (String × List Char) :=
  match cs with
  | [] => .error malformed
  | c :: rest =>
      if isBareKeyChar c then .ok (String.ofList (cs.takeWhile isBareKeyChar), cs.dropWhile isBareKeyChar)
      else if c = '"' ∨ c = '\'' then takeLine c rest
      else .error malformed

/-- A dotted key and the spaces after it, at most `fuel` names. -/
def takeKeyUpTo : Nat → List Char → Except Fault (Key × List Char)
  | 0, _ => .error malformed
  | fuel + 1, cs => do
      let (name, rest) ← takeName cs
      match dropSpaces rest with
      | '.' :: rest => do
          let (names, rest) ← takeKeyUpTo fuel (dropSpaces rest)
          return (name :: names, rest)
      | rest => return ([name], rest)

def takeKey (cs : List Char) : Except Fault (Key × List Char) := takeKeyUpTo (cs.length + 1) cs

/-- The characters after an equals sign and spaces. -/
def dropEquals (cs : List Char) : Except Fault (List Char) :=
  match cs with
  | '=' :: rest => .ok (dropSpaces rest)
  | _ => .error malformed

/-! ### Values -/

/-- The room that the items of a list leave, out of that of the list. -/
def roomInList? (room : Nat) : Except Fault Nat := if room < 2 then .error .tooDeep else .ok (room - 2)

/-- The room that the entries of a table between braces leave. -/
def roomInTable? (room : Nat) : Except Fault Nat := if room < 3 then .error .tooDeep else .ok (room - 3)

/-- An entry of a table between braces: its parents are made, and none of the closed keys may be entered. -/
def addInline (closed : List Key) (key : Key) (v : Value) (es : Entries) : Except Fault Entries :=
  if closed.any fun k => k.isPrefixOf key then .error malformed
  else changeTable false (addEntry (key.getLastD "") v) key.dropLast es

mutual

/-- A value; `fuel` bounds how many values are begun one within or after another. -/
def takeValue (room : Nat) : Nat → List Char → Except Fault (Value × List Char)
  | 0, _ => .error malformed
  | fuel + 1, cs =>
      match cs with
      | '"' :: rest => do
          let (s, rest) ← takeText '"' rest
          return (.text s, rest)
      | '\'' :: rest => do
          let (s, rest) ← takeText '\'' rest
          return (.text s, rest)
      | '[' :: rest => do
          match ← dropFiller (rest.length + 1) rest with
          | ']' :: rest => return (.list [], rest)
          | rest =>
              let (items, rest) ← takeItems (← roomInList? room) fuel rest
              return (.list items, rest)
      | '\x7b' :: rest =>
          match dropSpaces rest with
          | '\x7d' :: rest => .ok (.table [], rest)
          | rest => do
              let (es, rest) ← takeInline (← roomInTable? room) fuel [] [] rest
              return (.table es, rest)
      | _ =>
          if "true".toList.isPrefixOf cs then .ok (.flag true, cs.drop 4)
          else if "false".toList.isPrefixOf cs then .ok (.flag false, cs.drop 5)
          else takeScalar cs

/-- The items of a list up to its closing bracket. -/
def takeItems (room : Nat) : Nat → List Char → Except Fault (List Value × List Char)
  | 0, _ => .error malformed
  | fuel + 1, cs => do
      let (v, rest) ← takeValue room fuel cs
      match ← dropFiller (rest.length + 1) rest with
      | ']' :: rest => return ([v], rest)
      | ',' :: rest =>
          match ← dropFiller (rest.length + 1) rest with
          | ']' :: rest => return ([v], rest)
          | rest =>
              let (vs, rest) ← takeItems room fuel rest
              return (v :: vs, rest)
      | _ => throw malformed

/-- The entries of a table between braces up to its closing brace. -/
def takeInline (room : Nat) : Nat → List Key → Entries → List Char → Except Fault (Entries × List Char)
  | 0, _, _, _ => .error malformed
  | fuel + 1, closed, es, cs => do
      let (key, rest) ← takeKey cs
      let (v, rest) ← takeValue room fuel (← dropEquals rest)
      let es ← addInline closed key v es
      match dropSpaces rest with
      | '\x7d' :: rest => return (es, rest)
      | ',' :: rest => takeInline room fuel (if isContainer v then closed ++ [key] else closed) es (dropSpaces rest)
      | _ => throw malformed

end

/-! ### Documents -/

/-- A heading after its opening bracket. -/
def takeHeading (d : Draft) (cs : List Char) : Except Fault (Draft × List Char) := do
  let d := d.settle
  match cs with
  | '[' :: rest =>
      let (key, rest) ← takeKey (dropSpaces rest)
      match rest with
      | ']' :: ']' :: rest => return (← d.openItem key, rest)
      | _ => throw malformed
  | _ =>
      let (key, rest) ← takeKey (dropSpaces cs)
      match rest with
      | ']' :: rest => return (← d.openTable key, rest)
      | _ => throw malformed

/-- What stands on a line before its comment. -/
def takeStatement (room : Nat) (d : Draft) (cs : List Char) : Except Fault (Draft × List Char) := do
  match cs with
  | '#' :: _ => return (d, cs)
  | '[' :: rest =>
      let (d, rest) ← takeHeading d rest
      return (d, dropSpaces rest)
  | _ =>
      let (key, rest) ← takeKey cs
      let value ← dropEquals rest
      let (v, rest) ← takeValue room (2 * value.length + 2) value
      return (← d.add key v, dropSpaces rest)

/-- The lines of a document, at most `fuel` of them. -/
def readLines (room : Nat) : Nat → Draft → List Char → Except Fault Draft
  | 0, d, _ => .ok d
  | fuel + 1, d, cs =>
      match dropSpaces cs with
      | [] => .ok d
      | '\n' :: rest => readLines room fuel d rest
      | start => do
          let (d, rest) ← takeStatement room d start
          match ← dropComment rest with
          | [] => return d
          | '\n' :: rest => readLines room fuel d rest
          | _ => throw malformed

/-- A carriage return before a line feed does not count. -/
def dropReturns : List Char → List Char
  | [] => []
  | '\r' :: '\n' :: cs => '\n' :: dropReturns cs
  | c :: cs => c :: dropReturns cs

/-- The entries of a document, whose values have some room. -/
def read (room : Nat) (s : String) : Except Fault Entries := do
  let cs := dropReturns s.toList
  return (← readLines room (cs.length + 1) .start cs).entries

end ScoreGate.Toml
