import ScoreGate.Text.Lines

/-!
# Parameters of actions

A tag that begins with an at sign names an action.  Its parameters are a handler with literal arguments in
parentheses, or a literal alone.  A literal is a number, a text, one of three names, or a tuple, a set or a table of
literals; members of sets and keys of tables may hold neither.  Only whether the parameters can be read matters here.

* `Parameters.valid`: whether the parameters of an action can be read.
-/

namespace ScoreGate.Parameters

/-- What a literal is, as far as the literals around it depend on it. -/
inductive Kind where
  /-- a number without a sign -/
  | real
  /-- an imaginary number without a sign -/
  | imaginary
  /-- a real number with a sign -/
  | signed
  | text
  | bytes
  /-- any other literal that may stand in a set -/
  | fixed
  /-- a literal that may not stand in a set -/
  | container
  deriving DecidableEq, Repr

/-- A piece of the text, as one reader takes it: what it is, and what follows. -/
abbrev Taken := Option (Kind × List Char)

/-! ### Blanks -/

/-- The text without the blanks and comments before it.  A line may end where a bracket is open, or after a backslash. -/
def dropSpace (nested : Bool) : Bool → List Char → List Char
  | _, [] => []
  | true, c :: cs => if c = '\n' ∨ c = '\r' then dropSpace nested false (c :: cs) else dropSpace nested true cs
  | false, c :: cs =>
      if c = ' ' ∨ c = '\t' ∨ c = '\x0c' then dropSpace nested false cs
      else if c = '#' then dropSpace nested true cs
      else if nested ∧ (c = '\n' ∨ c = '\r') then dropSpace nested false cs
      else
        match c, cs with
        | '\\', '\n' :: rest => dropSpace nested false rest
        | _, _ => c :: cs
termination_by inComment cs => 2 * cs.length + inComment.toNat
decreasing_by all_goals simp_all +arith

/-! ### Numbers -/

/-- Whether every underscore stands between two other characters. -/
def groupsFit (run : List Char) : Bool := (splitOn '_' run).all (!·.isEmpty)

/-- The digits of a base with a letter of its own. -/
def digitsOf? (letter : Char) : Option (Char → Bool) :=
  match letter.toLower with
  | 'x' => some fun c => c.isDigit || ('a' ≤ c.toLower && c.toLower ≤ 'f')
  | 'o' => some fun c => '0' ≤ c && c ≤ '7'
  | 'b' => some fun c => c = '0' || c = '1'
  | _ => none

/-- The longest decimal integer. -/
def maxDigits : Nat := 4300

/-- Whether a decimal integer is written without zeros before it, and is not too long. -/
def isPlainInteger (run : List Char) : Bool :=
  let ds := run.filter (· ≠ '_')
  (ds.head? ≠ some '0' || ds.all (· = '0')) && ds.length ≤ maxDigits

def takeExponent (cs : List Char) : Option (List Char) × List Char :=
  match cs with
  | mark :: rest =>
      if mark = 'e' ∨ mark = 'E' then
        let body := match rest with
          | sign :: more => if sign = '+' ∨ sign = '-' then more else rest
          | [] => rest
        (some (body.takeWhile fun c => c.isDigit || c = '_'), body.dropWhile fun c => c.isDigit || c = '_')
      else (none, cs)
  | [] => (none, cs)

/-- A decimal number: digits, a fraction, an exponent, and the mark of imaginary numbers. -/
def takeDecimal (cs : List Char) : Taken :=
  let inRun (c : Char) : Bool := c.isDigit || c = '_'
  let whole := cs.takeWhile inRun
  let (fraction, rest) := match cs.dropWhile inRun with
    | '.' :: more => (some (more.takeWhile inRun), more.dropWhile inRun)
    | rest => (none, rest)
  let (exponent, rest) := takeExponent rest
  let fits := (whole.isEmpty || groupsFit whole) && fraction.all (fun f => f.isEmpty || groupsFit f) &&
    exponent.all (fun e => groupsFit e) && !(whole.isEmpty && fraction.all List.isEmpty)
  match rest with
  | mark :: more =>
      if !fits then none
      else if mark = 'j' ∨ mark = 'J' then some (.imaginary, more)
      else if fraction.isSome || exponent.isSome || isPlainInteger whole then some (.real, rest)
      else none
  | [] =>
      if fits && (fraction.isSome || exponent.isSome || isPlainInteger whole) then some (.real, []) else none

/-- A number that no word follows. -/
def takeNumber (cs : List Char) : Taken := do
  let (kind, rest) ← match cs with
    | '0' :: letter :: more =>
        match digitsOf? letter with
        | some isDigit =>
            let run := more.takeWhile fun c => isDigit c || c = '_'
            let digits := if run.head? = some '_' then run.drop 1 else run
            if groupsFit digits then some (Kind.real, more.drop run.length) else none
        | none => takeDecimal cs
    | _ => takeDecimal cs
  if rest.head?.any isWordChar then none else some (kind, rest)

/-! ### Texts -/

/-- How many hexadecimal digits belong to a letter after a backslash. -/
def escapeLength (inBytes : Bool) (c : Char) : Nat :=
  if c = 'x' then 2 else if inBytes then 0 else if c = 'u' then 4 else if c = 'U' then 8 else 0

def isHex (c : Char) : Bool := c.isDigit || ('a' ≤ c.toLower && c.toLower ≤ 'f')

/-- Whether the digits of an escape are complete and name a character. -/
def escapeFits (length : Nat) (cs : List Char) : Bool :=
  let ds := cs.take length
  ds.length = length && ds.all isHex && (length < 8 || (ds.take 2 = ['0', '0'] && (ds.drop 2).take 2 ≠ []
    && (ds.getD 2 '0' = '0' || (ds.getD 2 '0' = '1' && ds.getD 3 '0' = '0'))))

/-- What follows a text, after the quotes that open it. -/
def textEnd? (raw inBytes : Bool) (quotes : List Char) : List Char → Option (List Char)
  | [] => none
  | c :: cs =>
      if quotes.isPrefixOf (c :: cs) then some ((c :: cs).drop quotes.length)
      else if inBytes && 0x80 ≤ c.toNat then none
      else if quotes.length = 1 && (c = '\n' || c = '\r') then none
      else if c = '\\' then
        match cs with
        | [] => none
        | e :: rest =>
            let length := escapeLength inBytes e
            if inBytes && 0x80 ≤ e.toNat then none
            else if raw || (escapeFits length rest && (inBytes || e ≠ 'N')) then textEnd? raw inBytes quotes rest
            else none
      else textEnd? raw inBytes quotes cs

/-- A text with the letters before its quotes. -/
def takeText (cs : List Char) : Taken :=
  let letters := cs.takeWhile Char.isAlpha
  let lower := letters.map Char.toLower
  let rest := cs.drop letters.length
  if ["", "u", "r", "b", "br", "rb"].all (·.toList ≠ lower) then none
  else
    match rest with
    | q :: more =>
        if q ≠ '\'' ∧ q ≠ '"' then none
        else
          let inBytes := lower.contains 'b'
          let quotes := if [q, q].isPrefixOf more then [q, q, q] else [q]
          (textEnd? (lower.contains 'r') inBytes quotes (rest.drop quotes.length)).map fun after =>
            (if inBytes then .bytes else .text, after)
    | [] => none

/-- Texts one after another are one text. -/
def takeTexts (nested : Bool) : Nat → List Char → Taken
  | 0, _ => none
  | fuel + 1, cs => do
      let (kind, rest) ← takeText cs
      let after := dropSpace nested false rest
      if after.head?.any fun c => c = '\'' || c = '"' || c.isAlpha then
        let (next, rest) ← takeTexts nested fuel after
        if next = kind then some (kind, rest) else none
      else some (kind, rest)

/-! ### Literals -/

def literalNames : List String := ["True", "False", "None"]

/-- What follows the name of the empty set, called without arguments. -/
def afterEmptySet? (nested : Bool) (cs : List Char) : Option (List Char) :=
  match dropSpace nested false cs with
  | '(' :: rest =>
      match dropSpace true false rest with
      | ')' :: after => some after
      | _ => none
  | _ => none

/-- A name, or a text with letters before its quotes. -/
def takeName (nested : Bool) (cs : List Char) : Taken :=
  let word := cs.takeWhile isWordChar
  let rest := cs.drop word.length
  if literalNames.any (·.toList = word) then some (.fixed, rest)
  else if word = "set".toList then (afterEmptySet? nested rest).map fun after => (.container, after)
  else takeTexts nested (cs.length + 1) cs

/-- A sum of a number and an imaginary one is a number; no other sum is a literal. -/
def sumOf : Kind → Kind → Option Kind
  | .real, .imaginary => some .fixed
  | .signed, .imaginary => some .fixed
  | _, _ => none

def signedOf : Kind → Option Kind
  | .real => some .signed
  | .imaginary => some .fixed
  | _ => none

mutual

/-- A literal without a sign, where a blank has been passed. -/
def takeAtom (nested : Bool) : Nat → List Char → Taken
  | 0, _ => none
  | _, [] => none
  | fuel + 1, c :: cs =>
      if c = '(' then
        match dropSpace true false cs with
        | ')' :: rest => some (.fixed, rest)
        | inner => do
            let (kind, rest) ← takeLiteral true fuel inner
            match rest with
            | ')' :: rest => some (kind, rest)
            | ',' :: rest => takeMembers ')' (if kind = .container then .container else .fixed) fuel rest
            | _ => none
      else if c = '{' then
        match dropSpace true false cs with
        | '}' :: rest => some (.container, rest)
        | inner => do
            let (kind, rest) ← takeLiteral true fuel inner
            if kind = .container then none
            else
              match rest with
              | '}' :: rest => some (.container, rest)
              | ',' :: rest =>
                  let (members, rest) ← takeMembers '}' .fixed fuel rest
                  if members = .container then none else some (.container, rest)
              | ':' :: rest =>
                  let (_, rest) ← takeLiteral true fuel (dropSpace true false rest)
                  takeEntries fuel rest
              | _ => none
      else if c.isDigit then takeNumber (c :: cs)
      else if c = '.' then
        if "..".toList.isPrefixOf cs then some (.fixed, cs.drop 2) else takeNumber (c :: cs)
      else takeName nested (c :: cs)

/-- A literal, and the blanks after it. -/
def takeLiteral (nested : Bool) : Nat → List Char → Taken
  | 0, _ => none
  | fuel + 1, cs => do
      let (kind, rest) ← match cs with
        | sign :: more =>
            if sign = '+' ∨ sign = '-' then do
              let (kind, rest) ← takeAtom nested fuel (dropSpace nested false more)
              return (← signedOf kind, rest)
            else takeAtom nested fuel cs
        | [] => none
      match dropSpace nested false rest with
      | sign :: more =>
          if sign = '+' ∨ sign = '-' then do
            let (right, rest) ← takeAtom nested fuel (dropSpace nested false more)
            return (← sumOf kind right, dropSpace nested false rest)
          else some (kind, sign :: more)
      | [] => some (kind, [])

/-- The members after the first comma, up to the closing bracket.  They are a container's when one of them is. -/
def takeMembers (close : Char) (kind : Kind) : Nat → List Char → Taken
  | 0, _ => none
  | fuel + 1, cs =>
      match dropSpace true false cs with
      | [] => none
      | c :: rest =>
          if c = close then some (kind, rest)
          else do
            let (member, rest) ← takeLiteral true fuel (c :: rest)
            let kind := if member = .container then .container else kind
            match rest with
            | [] => none
            | d :: rest => if d = close then some (kind, rest) else if d = ',' then takeMembers close kind fuel rest else none

/-- The entries of a table after a value, up to the closing bracket. -/
def takeEntries : Nat → List Char → Taken
  | 0, _ => none
  | _, [] => none
  | fuel + 1, c :: cs =>
      if c = '}' then some (.container, cs)
      else if c ≠ ',' then none
      else
        match dropSpace true false cs with
        | '}' :: rest => some (.container, rest)
        | inner => do
            let (key, rest) ← takeLiteral true fuel inner
            if key = .container then none
            else
              match rest with
              | ':' :: rest =>
                  let (_, rest) ← takeLiteral true fuel (dropSpace true false rest)
                  takeEntries fuel rest
              | _ => none

end

/-- Whether members follow a first one without brackets, up to the end. -/
def endsTuple : Nat → List Char → Bool
  | 0, _ => false
  | fuel + 1, cs =>
      match cs with
      | [] => true
      | c :: rest =>
          if c ≠ ',' then false
          else
            match dropSpace false false rest with
            | [] => true
            | inner =>
                match takeLiteral false (2 * inner.length + 2) inner with
                | some (_, after) => endsTuple fuel after
                | none => false

/-- Whether a text is a literal, or several between commas. -/
def isLiteral (cs : List Char) : Bool :=
  match takeLiteral false (2 * cs.length + 2) (dropSpace false false cs) with
  | some (_, rest) => endsTuple (rest.length + 1) rest
  | none => false

/-- The arguments after a handler's name, if a text is a handler; without parentheses it has none. -/
def handlerArguments? (cs : List Char) : Option (List Char) :=
  let arguments := cs.dropWhile fun c => isWordChar c || c = '.'
  if arguments.isEmpty then some "()".toList
  else if arguments.head? = some '(' && arguments.getLast? = some ')' && !arguments.contains '\n' then some arguments
  else none

/-- Whether the parameters of an action can be read; there may be none. -/
def valid (cs : List Char) : Bool :=
  cs.isEmpty || isLiteral ((handlerArguments? (strip cs)).getD (strip cs))

end ScoreGate.Parameters
