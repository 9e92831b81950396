import ScoreGate.Value

/-!
# Writing documents

Documents are written in ASCII: every other character is an escape for its code units of 16 bits.  The entries of a
table keep their order.  There are two layouts: one line, and one entry a line indented by two spaces a level.
-/

namespace ScoreGate.Document

/-! ### Texts and numbers -/

def unitEscape (n : Nat) : List Char := '\\' :: 'u' :: hexText 4 n

def writeChar (c : Char) : List Char :=
  let n := c.toNat
  if c = '"' then ['\\', '"']
  else if c = '\\' then ['\\', '\\']
  else if c = '\n' then ['\\', 'n']
  else if c = '\r' then ['\\', 'r']
  else if c = '\t' then ['\\', 't']
  else if n = 0x08 then ['\\', 'b']
  else if n = 0x0c then ['\\', 'f']
  else if 0x20 ≤ n ∧ n ≤ 0x7e then [c]
  else if n < 0x10000 then unitEscape n
  else unitEscape (0xd800 + (n - 0x10000) / 0x400) ++ unitEscape (0xdc00 + (n - 0x10000) % 0x400)

def writeText (s : String) : List Char :=
  '"' :: s.toList.flatMap writeChar ++ ['"']

def writeNumber : Number → List Char
  | .flag true => "true".toList
  | .flag false => "false".toList
  | .int n => (toString n).toList
  | .real .nan => "NaN".toList
  | .real (.infinity true) => "-Infinity".toList
  | .real (.infinity false) => "Infinity".toList
  | .real x => x.text.toList

/-! ### Layouts -/

/-- What stands before an entry at a level, and between a name and its value. -/
structure Layout where
  gap : Nat → List Char
  colon : List Char

def Layout.line : Layout := ⟨fun _ => [], [':']⟩

/-- One entry a line, indented by two spaces a level. -/
def Layout.indented : Layout := ⟨fun level => '\n' :: List.replicate (2 * level) ' ', [':', ' ']⟩

mutual

/-- The text of a value whose entries stand one level deeper than `level`. -/
def write (layout : Layout) (level : Nat) : Value → List Char
  | .null => "null".toList
  | .number n => writeNumber n
  | .text s => writeText s
  | .moment m => writeText m.text
  | .list [] => ['[', ']']
  | .list (v :: vs) =>
      '[' :: layout.gap (level + 1) ++ write layout (level + 1) v ++ writeItems layout (level + 1) vs ++
        layout.gap level ++ [']']
  | .table [] => ['\x7b', '\x7d']
  | .table ((k, v) :: es) =>
      '\x7b' :: layout.gap (level + 1) ++ writeText k ++ layout.colon ++ write layout (level + 1) v ++
        writeEntries layout (level + 1) es ++ layout.gap level ++ ['\x7d']

def writeItems (layout : Layout) (level : Nat) : List Value → List Char
  | [] => []
  | v :: vs => ',' :: layout.gap level ++ write layout level v ++ writeItems layout level vs

/-- The entries after the first. -/
def writeEntries (layout : Layout) (level : Nat) : List (String × Value) → List Char
  | [] => []
  | (k, v) :: es =>
      ',' :: layout.gap level ++ writeText k ++ layout.colon ++ write layout level v ++
        writeEntries layout level es

end

/-- The document with one entry a line. -/
def indented (v : Value) : String := String.ofList (write .indented 0 v)

def line (v : Value) : String := String.ofList (write .line 0 v)

end ScoreGate.Document
