import ScoreGate.Path
import ScoreGate.Value

/-!
# Wildcard patterns

In a pattern a star stands for any characters, a question mark for one, and brackets for one character of a set, or
not of it after an exclamation mark.  A bracket that is never closed stands for itself.

* `Glob.parse`: the parts of a pattern.
* `Glob.accepts`: whether a whole text is what they describe; `Glob.fits` finds it for all ends of the text at once.
* `skips`: whether some pattern of a list matches a path, by components from the right, as a whole, or by name.
-/

namespace ScoreGate

/-- One part of a pattern. -/
inductive GlobPart where
  | anything
  | one
  | literal (c : Char)
  /-- one character that lies in one of the ranges, or with `negated` in none -/
  | inSet (negated : Bool) (ranges : List (Char × Char))
  deriving DecidableEq, Repr

namespace Glob

/-! ### Sets -/

/-- The text up to the bracket that closes a set, and what follows; a closing bracket at the very start is part of the
set. -/
def takeSet? (cs : List Char) : Option (List Char × List Char) :=
  let (mark, body) := match cs with
    | '!' :: rest => (['!'], rest)
    | _ => ([], cs)
  let (first, body) := match body with
    | ']' :: rest => ([']'], rest)
    | _ => ([], body)
  match body.dropWhile (· ≠ ']') with
  | [] => none
  | _ :: rest => some (mark ++ first ++ body.takeWhile (· ≠ ']'), rest)

/-- The pieces of a set between the hyphens that make ranges: a hyphen makes one if at least one character stands
before it in its piece, and the search goes on two characters after it. -/
def pieces : Nat → List Char → List Char → List (List Char)
  | _, piece, [] => [piece.reverse]
  | skip + 1, piece, c :: cs => pieces skip (c :: piece) cs
  | 0, piece, c :: cs => if c = '-' then piece.reverse :: pieces 2 [] cs else pieces 0 (c :: piece) cs

/-- The pieces without an empty one at the end, for which the hyphen before it stands for itself. -/
def closePieces : List (List Char) → List (List Char)
  | [] => []
  | [p] => [p]
  | [p, []] => [p ++ ['-']]
  | p :: q :: ps => p :: closePieces (q :: ps)

/-- The pieces after ranges that run backwards are dropped: their two ends vanish and the pieces become one. -/
def dropBackward : List (List Char) → List (List Char)
  | [] => []
  | p :: ps =>
      match dropBackward ps with
      | [] => [p]
      | q :: qs =>
          match p.getLast?, q with
          | some a, b :: q' => if b < a then (p.dropLast ++ q') :: qs else p :: q :: qs
          | _, _ => p :: q :: qs

/-- The ranges that some pieces mean: single characters, and a range from the end of a piece to the start of the next;
after an empty piece the hyphen stands for itself. -/
def rangesOf : List (List Char) → List (Char × Char)
  | [] => []
  | [p] => p.map fun c => (c, c)
  | p :: q :: ps =>
      (p.map fun c => (c, c)) ++
        (match p.getLast?, q with
        | some a, b :: _ => [(a, b)]
        | _, _ => [('-', '-')]) ++
        rangesOf (q :: ps)

/-- The set written by a text between brackets. -/
def setOf (body : List Char) : GlobPart :=
  let skip := if body.head? = some '!' then 2 else 1
  match dropBackward (closePieces (pieces skip [] body)) with
  | ('!' :: p) :: ps => .inSet true (rangesOf (p :: ps))
  | ps => .inSet false (rangesOf ps)

/-! ### Patterns -/

/-- The parts of a pattern, at most `fuel` of them. -/
def parseUpTo : Nat → List Char → List GlobPart
  | 0, _ => []
  | _, [] => []
  | fuel + 1, '*' :: cs => .anything :: parseUpTo fuel cs
  | fuel + 1, '?' :: cs => .one :: parseUpTo fuel cs
  | fuel + 1, '[' :: cs =>
      match takeSet? cs with
      | some (body, rest) => setOf body :: parseUpTo fuel rest
      | none => .literal '[' :: parseUpTo fuel cs
  | fuel + 1, c :: cs => .literal c :: parseUpTo fuel cs

/-- The parts of a pattern; each takes at least one character. -/
def parse (pattern : String) : List GlobPart := parseUpTo pattern.length pattern.toList

/-- Whether some end of a text satisfies a test. -/
def someEnd (test : List Char → Bool) : List Char → Bool
  | [] => test []
  | c :: cs => test (c :: cs) || someEnd test cs

/-- Whether a whole text is what the parts describe. -/
def accepts : List GlobPart → List Char → Bool
  | [], cs => cs.isEmpty
  | .anything :: ps, cs => someEnd (accepts ps) cs
  | .one :: ps, cs =>
      match cs with
      | [] => false
      | _ :: cs => accepts ps cs
  | .literal a :: ps, cs =>
      match cs with
      | [] => false
      | c :: cs => c == a && accepts ps cs
  | .inSet negated ranges :: ps, cs =>
      match cs with
      | [] => false
      | c :: cs => (ranges.any (fun r => r.1 ≤ c && c ≤ r.2) != negated) && accepts ps cs

/-! ### All ends at once -/

/-- For each end of a text, longest first, whether it or a shorter one has a property, from the property of each. -/
def orShorter : List Bool → List Bool
  | [] => []
  | b :: bs =>
      let rest := orShorter bs
      (b || rest.head?.getD false) :: rest

/-- For each end of a text whether it begins with a character of a class and goes on with an end that has a property. -/
def afterOne (takes : Char → Bool) : List Char → List Bool → List Bool
  | c :: cs, _ :: b :: bs => (takes c && b) :: afterOne takes cs (b :: bs)
  | _, _ => [false]

/-- For each end of a text, longest first, whether it is what the parts describe.  Every part goes over the text once,
so many stars cost no more than many other parts. -/
def acceptsEnds : List GlobPart → List Char → List Bool
  | [], cs => cs.map (fun _ => false) ++ [true]
  | .anything :: ps, cs => orShorter (acceptsEnds ps cs)
  | .one :: ps, cs => afterOne (fun _ => true) cs (acceptsEnds ps cs)
  | .literal a :: ps, cs => afterOne (· == a) cs (acceptsEnds ps cs)
  | .inSet negated ranges :: ps, cs =>
      afterOne (fun c => ranges.any (fun r => r.1 ≤ c && c ≤ r.2) != negated) cs (acceptsEnds ps cs)

/-- The answers for a text are its own and those for its shorter ends. -/
theorem acceptsEnds_eq (ps : List GlobPart) (cs : List Char) :
    acceptsEnds ps cs = accepts ps cs ::
      match cs with
      | [] => []
      | _ :: rest => acceptsEnds ps rest := by
  induction ps generalizing cs with
  | nil => cases cs <;> simp [acceptsEnds, accepts]
  | cons p ps ih =>
      cases p with
      | anything =>
          -- what stands at the head of the answers is the answer of the first end that is taken
          have first (cs : List Char) : (orShorter (acceptsEnds ps cs)).head?.getD false = someEnd (accepts ps) cs := by
            induction cs with
            | nil => simp [ih [], orShorter, someEnd]
            | cons c cs ihc =>
                rw [ih (c :: cs)]
                simp [orShorter, someEnd, ihc]
          cases cs with
          | nil => simp [acceptsEnds, accepts, ih [], orShorter, someEnd]
          | cons c cs =>
              simp only [acceptsEnds, accepts, someEnd]
              rw [ih (c :: cs)]
              simp [orShorter, first]
      | _ =>
          cases cs with
          | nil => simp [acceptsEnds, accepts, afterOne]
          | cons c cs =>
              simp only [acceptsEnds, accepts]
              rw [ih (c :: cs)]
              simp only
              rw [ih cs]
              simp [afterOne]

/-- Whether a text is what a pattern describes. -/
def fits (pattern text : String) : Bool := (acceptsEnds (parse pattern) text.toList).head?.getD false

theorem fits_eq_accepts (pattern text : String) : fits pattern text = accepts (parse pattern) text.toList := by
  rw [fits, acceptsEnds_eq, List.head?_cons, Option.getD_some]

end Glob

/-! ### Paths -/

/-- Whether a path ends in what a pattern describes, component by component; a pattern with a root describes the whole
path.  A pattern without components is a fault. -/
def Path.fits (p : Path) (pattern : String) : Except Fault Bool :=
  let q := Path.ofText pattern
  if q.steps.isEmpty then .error (.badValue .emptyPattern)
  else if q.root ≠ "" && q.root ≠ p.root then .ok false
  else if q.root ≠ "" && q.steps.length ≠ p.steps.length then .ok false
  else if q.root = "" && q.steps.length > p.steps.length then .ok false
  else .ok ((q.parts.reverse.zip p.steps.reverse).all fun e => Glob.fits e.1 e.2)

/-- Whether one pattern matches a path. -/
def Path.skippedBy (p : Path) (pattern : String) : Except Fault Bool := do
  if ← p.fits pattern then return true
  return Glob.fits pattern p.text || Glob.fits pattern p.name

/-- A pattern has to be a text; any other value is a fault. -/
def patternText : Value → Except Fault String
  | .text s => .ok s
  | v =>
      if !v.isTrue then .error (.badValue .emptyPattern)
      else
        match v with
        | .table _ => .error (.missingKey "0")
        | .list items => .error (if items.any (·.sameName (.text "/")) then .noMember else .wrongKind)
        | _ => .error .wrongKind

/-- Whether some pattern of a list matches a path; the patterns are tried in their order. -/
def skips (p : Path) : List Value → Except Fault Bool
  | [] => .ok false
  | v :: vs => do
      if ← p.skippedBy (← patternText v) then return true
      skips p vs

end ScoreGate
