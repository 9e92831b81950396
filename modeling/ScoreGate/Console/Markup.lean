import ScoreGate.Console.Parameters
import ScoreGate.Console.Style

/-!
# Markup

Text for the screen may hold tags between square brackets, which set a style and do not print.  A tag begins with a
small letter or one of three signs; a backslash before it makes it plain text.  A closing tag names the style it
ends, or none for the last one; it has to end a style that was begun.  A tag may have parameters after an equals sign;
those of an action have to be readable when the action ends.

* `Markup.escape`: the markup that prints as a given text.
* `Markup.render`: what a markup prints.
-/

namespace ScoreGate.Markup

/-! ### Tags -/

def beginsTag (c : Char) : Bool := ('a' ≤ c && c ≤ 'z') || c = '#' || c = '/' || c = '@'

/-- The text of a tag after its opening bracket, and what follows its closing bracket. -/
def takeTag? (cs : List Char) : Option (List Char × List Char) :=
  match cs with
  | [] => none
  | c :: rest =>
      let body := rest.takeWhile fun d => d ≠ ']' && d ≠ '['
      match rest.dropWhile fun d => d ≠ ']' && d ≠ '[' with
      | ']' :: after => if beginsTag c then some (c :: body, after) else none
      | _ => none

/-- A piece of markup. -/
inductive Piece where
  | text (cs : List Char)
  /-- a tag, with the number of backslashes right before it -/
  | tag (slashes : Nat) (body : List Char)
  deriving DecidableEq, Repr

def slashesOf (n : Nat) : List Char := List.replicate n '\\'

/-- The pieces of a markup, after some characters that belong to an earlier one and some backslashes.  A backslash right
before a bracket that opens no tag does not print. -/
def pieces : Nat → Nat → List Char → List Piece
  | _, n, [] => [.text (slashesOf n)]
  | skip + 1, n, _ :: cs => pieces skip n cs
  | 0, n, c :: cs =>
      if c = '\\' then pieces 0 (n + 1) cs
      else if c = '[' then
        match takeTag? cs with
        | some (body, rest) => .tag n body :: pieces (cs.length - rest.length) 0 cs
        | none => .text (slashesOf (n - 1) ++ ['[']) :: pieces 0 0 cs
      else .text (slashesOf n ++ [c]) :: pieces 0 0 cs

/-! ### Escaping -/

/-- The markup that prints as a piece prints by itself. -/
def escapePiece : Piece → List Char
  | .text cs => cs
  | .tag n body => slashesOf (2 * n + 1) ++ '[' :: body ++ [']']

/-- The pieces of a text, where every backslash outside tags prints. -/
def textPieces : Nat → Nat → List Char → List Piece
  | _, n, [] => [.text (slashesOf n)]
  | skip + 1, n, _ :: cs => textPieces skip n cs
  | 0, n, c :: cs =>
      if c = '\\' then textPieces 0 (n + 1) cs
      else if c = '[' then
        match takeTag? cs with
        | some (body, rest) => .tag n body :: textPieces (cs.length - rest.length) 0 cs
        | none => .text (slashesOf n ++ ['[']) :: textPieces 0 0 cs
      else .text (slashesOf n ++ [c]) :: textPieces 0 0 cs

/-- A text whose last character is a backslash, and only that one, gets another. -/
def closeSlash (cs : List Char) : List Char :=
  match cs.reverse with
  | '\\' :: '\\' :: _ => cs
  | '\\' :: _ => cs ++ ['\\']
  | _ => cs

/-- The markup that prints as a text. -/
def escape (s : String) : String :=
  String.ofList (closeSlash ((textPieces 0 0 s.toList).flatMap escapePiece))

/-! ### Rendering -/

/-- Control characters that are never printed: bell, backspace, vertical tab, form feed and carriage return. -/
def isUnprinted (c : Char) : Bool :=
  let n := c.toNat
  n = 7 || n = 8 || n = 11 || n = 12 || n = 13

/-- An open tag: the name of its style, and its parameters. -/
structure OpenTag where
  name : List Char
  parameters : List Char
  deriving DecidableEq, Repr

/-- What ends with an open tag: the parameters of an action have to be readable. -/
def OpenTag.finish (t : OpenTag) : Except Failure Unit :=
  if t.name.head? = some '@' && !Parameters.valid t.parameters then .error .markup else .ok ()

/-- The open tags, innermost first, after a closing tag; the last one of that name is closed. -/
def closeTag (name : List Char) (tags : List OpenTag) : Except Failure (List OpenTag) := do
  let wanted ← if name.isEmpty then pure [] else (styleName name).mapError Failure.fault
  match tags.find? fun t => name.isEmpty || t.name = wanted with
  | none => .error .markup
  | some t => do
      t.finish
      return tags.erase t

def applyTag (body : List Char) (tags : List OpenTag) : Except Failure (List OpenTag) :=
  let name := body.takeWhile (· ≠ '=')
  match name with
  | '/' :: rest => closeTag (strip rest) tags
  | _ => do
      return ⟨← (styleName name).mapError Failure.fault, body.drop (name.length + 1)⟩ :: tags

def renderPieces : List Piece → List OpenTag → Except Failure (List Char)
  | [], _ => .ok []
  | .text cs :: ps, tags => do return cs ++ (← renderPieces ps tags)
  | .tag n body :: ps, tags =>
      if n % 2 = 1 then do
        return slashesOf (n / 2) ++ '[' :: body ++ [']'] ++ (← renderPieces ps tags)
      else do
        let tags ← applyTag body tags
        return slashesOf (n / 2) ++ (← renderPieces ps tags)

/-- What a markup prints.  Without an opening bracket it has no tags, and every backslash prints. -/
def render (s : String) : Except Failure (List Char) := do
  let cs ←
    if s.toList.contains '[' then renderPieces (pieces 0 0 s.toList) []
    else pure s.toList
  return cs.filter fun c => !isUnprinted c

end ScoreGate.Markup
