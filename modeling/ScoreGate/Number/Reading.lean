import ScoreGate.Fault
import ScoreGate.Number.Decimal

/-!
# Numbers from text

White space around a number is ignored, decimal digits of every script count, and single underscores may stand
between digits.  Integers have an optional sign and digits; real numbers may have a point and an exponent, or be one of
the words for infinity and for no number, in letters of either case.
-/

namespace ScoreGate

/-- The text with blanks around it dropped and digits of every script as ASCII digits. -/
def plainNumber (s : String) : List Char :=
  (trimWhile isNumberBlank s.toList).map fun c =>
    match digitValue? c with
    | some d => Char.ofNat (0x30 + d)
    | none => c

def takeSign : List Char → Bool × List Char
  | '-' :: cs => (true, cs)
  | '+' :: cs => (false, cs)
  | cs => (false, cs)

/-- Whether every underscore stands between two digits; `afterDigit` tells what came before. -/
def underscoresFit : Bool → List Char → Bool
  | _, [] => true
  | afterDigit, '_' :: cs =>
      afterDigit && (match cs with | c :: _ => c.isDigit | [] => false) && underscoresFit false cs
  | _, c :: cs => underscoresFit c.isDigit cs

/-- The text without underscores, if they all stand between digits. -/
def dropUnderscores? (cs : List Char) : Option (List Char) :=
  if underscoresFit false cs then some (cs.filter (· != '_')) else none

def digitsValue (ds : List Char) : Nat :=
  ds.foldl (fun n d => n * 10 + (d.toNat - 0x30)) 0

/-- The number of digits from which on an integer is not read. -/
def maxIntegerDigits : Nat := 4300

/-- An integer from text. -/
def readInt (s : String) : Except ValueFault Int :=
  let (negative, body) := takeSign (plainNumber s)
  match dropUnderscores? body with
  | some ds =>
      if ds.isEmpty || !ds.all Char.isDigit then .error (.notInteger s)
      else if maxIntegerDigits < ds.length then .error (.tooManyDigits ds.length)
      else .ok (if negative then -(digitsValue ds : Int) else digitsValue ds)
  | none => .error (.notInteger s)

/-- The decimal exponent after an exponent mark: an optional sign and digits, nothing else. -/
def exponentValue? (cs : List Char) : Option Int :=
  let (negative, ds) := takeSign cs
  if ds.isEmpty || !ds.all Char.isDigit then none
  else some (if negative then -(digitsValue ds : Int) else digitsValue ds)

/-- Digits with an optional point and an optional exponent. -/
def unsignedReal? (negative : Bool) (cs : List Char) : Option Binary64 :=
  let whole := cs.takeWhile Char.isDigit
  let rest := cs.dropWhile Char.isDigit
  let (fraction, tail) := match rest with
    | '.' :: more => (more.takeWhile Char.isDigit, more.dropWhile Char.isDigit)
    | _ => ([], rest)
  if whole.isEmpty && fraction.isEmpty then none
  else
    let value (x : Int) : Binary64 :=
      Binary64.ofDecimal negative (digitsValue (whole ++ fraction)) (x - fraction.length)
    match tail with
    | [] => some (value 0)
    | mark :: x => if mark = 'e' ∨ mark = 'E' then (exponentValue? x).map value else none

/-- A real number from text. -/
def readReal (s : String) : Except ValueFault Binary64 :=
  let (negative, body) := takeSign (plainNumber s)
  let word := String.ofList (body.map Char.toLower)
  if word = "inf" ∨ word = "infinity" then .ok (.infinity negative)
  else if word = "nan" then .ok .nan
  else
    match (dropUnderscores? body).bind (unsignedReal? negative) with
    | some x => .ok x
    | none => .error (.notReal s)

end ScoreGate
