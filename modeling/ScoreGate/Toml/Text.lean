import ScoreGate.Document.Token

/-!
# Texts in TOML

The four kinds of text of TOML: between single or double quotes, on one line or on several.  Between double quotes a
backslash starts an escape; between single quotes every character stands for itself.  A reader takes the characters
that are left and gives what it read with the characters after it.
-/

namespace ScoreGate.Toml

/-- The fault of a text that is no TOML. -/
def malformed : Fault := .badValue .documentSyntax

def isSpace (c : Char) : Bool := c = ' ' || c = '\t'

def isSpaceOrLine (c : Char) : Bool := isSpace c || c = '\n'

def dropSpaces (cs : List Char) : List Char := cs.dropWhile isSpace

/-- Control characters may not stand anywhere, a tab excepted, and in a text of several lines the line feed. -/
def isControl (c : Char) : Bool := (c.toNat < 0x20 && c ≠ '\t') || c.toNat = 0x7f

def isLineControl (c : Char) : Bool := isControl c && c ≠ '\n'

/-- What stands before the first place of a mark, and what follows the mark. -/
def splitAtMark? (mark : List Char) : List Char → Option (List Char × List Char)
  | [] => if mark.isEmpty then some ([], []) else none
  | c :: cs =>
      if mark.isPrefixOf (c :: cs) then some ([], (c :: cs).drop mark.length)
      else (splitAtMark? mark cs).map fun (before, after) => (c :: before, after)

/-! ### Escapes -/

/-- The character of a number in hexadecimal digits. -/
def hexChar? (ds : List Char) : Option Char := do
  let n ← ds.foldlM (fun n d => do return n * 16 + (← Token.hexValue? d)) 0
  if n < 0xd800 ∨ (0xdfff < n ∧ n < 0x110000) then some (Char.ofNat n) else none

/-- The number of hexadecimal digits after a backslash and this letter. -/
def hexLength? (c : Char) : Option Nat :=
  match c with
  | 'u' => some 4
  | 'U' => some 8
  | _ => none

/-- The character that a backslash and this letter stand for. -/
def escaped? (c : Char) : Option Char :=
  match c with
  | 'b' => some '\x08'
  | 't' => some '\t'
  | 'n' => some '\n'
  | 'f' => some '\x0c'
  | 'r' => some '\r'
  | '"' => some '"'
  | '\\' => some '\\'
  | _ => none

/-- The end of a line after a backslash: spaces, a line feed, and all spaces and line feeds after it. -/
def takeContinuation (cs : List Char) : Except Fault (List Char × List Char) :=
  match dropSpaces cs with
  | [] => .ok ([], [])
  | '\n' :: rest => .ok ([], rest.dropWhile isSpaceOrLine)
  | _ => .error malformed

/-- What a backslash stands for. -/
def takeEscape (multiline : Bool) (cs : List Char) : Except Fault (List Char × List Char) :=
  match cs with
  | [] => .error malformed
  | c :: rest =>
      if multiline && isSpaceOrLine c then takeContinuation cs
      else
        match hexLength? c with
        | some n =>
            if (rest.take n).length < n then .error malformed
            else
              match hexChar? (rest.take n) with
              | some x => .ok ([x], rest.drop n)
              | none => .error malformed
        | none =>
            match escaped? c with
            | some x => .ok ([x], rest)
            | none => .error malformed

/-! ### Texts -/

/-- The characters up to the closing double quotes, at most `fuel` of them. -/
def takeBasic (multiline : Bool) : Nat → List Char → Except Fault (List Char × List Char)
  | 0, _ => .error malformed
  | _, [] => .error malformed
  | fuel + 1, '"' :: cs =>
      if !multiline then .ok ([], cs)
      else
        match cs with
        | '"' :: '"' :: rest => .ok ([], rest)
        | _ => do
            let (body, rest) ← takeBasic multiline fuel cs
            return ('"' :: body, rest)
  | fuel + 1, '\\' :: cs => do
      let (x, rest) ← takeEscape multiline cs
      let (body, rest) ← takeBasic multiline fuel rest
      return (x ++ body, rest)
  | fuel + 1, c :: cs =>
      if (if multiline then isLineControl c else isControl c) then .error malformed
      else do
        let (body, rest) ← takeBasic multiline fuel cs
        return (c :: body, rest)

/-- The characters up to a closing mark, each standing for itself. -/
def takeLiteral (multiline : Bool) (cs : List Char) : Except Fault (List Char × List Char) :=
  match splitAtMark? (if multiline then ['\'', '\'', '\''] else ['\'']) cs with
  | none => .error malformed
  | some (body, rest) =>
      if body.any (if multiline then isLineControl else isControl) then .error malformed else .ok (body, rest)

/-- Up to two more quotes right after the closing three belong to the text. -/
def takeExtraQuotes (quote : Char) (body rest : List Char) : List Char × List Char :=
  match rest with
  | a :: b :: more =>
      if a = quote ∧ b = quote then (body ++ [quote, quote], more)
      else if a = quote then (body ++ [quote], b :: more)
      else (body, rest)
  | [a] => if a = quote then (body ++ [quote], []) else (body, rest)
  | [] => (body, rest)

/-- A line feed right after the opening quotes does not count. -/
def dropFirstLine : List Char → List Char
  | '\n' :: cs => cs
  | cs => cs

/-- A text of one line, after its opening quote. -/
def takeLine (quote : Char) (cs : List Char) : Except Fault (String × List Char) := do
  let (body, rest) ← if quote = '"' then takeBasic false (cs.length + 1) cs else takeLiteral false cs
  return (String.ofList body, rest)

/-- A text at its opening quote. -/
def takeText (quote : Char) (cs : List Char) : Except Fault (String × List Char) :=
  match cs with
  | a :: b :: rest =>
      if a = quote ∧ b = quote then do
        let start := dropFirstLine rest
        let (body, rest) ← if quote = '"' then takeBasic true (start.length + 1) start else takeLiteral true start
        let (body, rest) := takeExtraQuotes quote body rest
        return (String.ofList body, rest)
      else takeLine quote cs
  | _ => takeLine quote cs

end ScoreGate.Toml
