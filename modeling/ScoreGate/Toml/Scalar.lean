import ScoreGate.Toml.Text

/-!
# Numbers and moments in TOML

Integers to base ten, sixteen, eight and two, floating-point numbers, dates, times and both together.  The longest
form that the characters begin with is read; what follows is not looked at.
-/

namespace ScoreGate.Toml

/-! ### Digits -/

/-- The digits of a run in which single underscores may stand between two of them. -/
def takeDigits (isDigit : Char → Bool) : List Char → List Char × List Char
  | '_' :: c :: cs =>
      if isDigit c then
        let (ds, rest) := takeDigits isDigit cs
        (c :: ds, rest)
      else ([], '_' :: c :: cs)
  | c :: cs =>
      if isDigit c then
        let (ds, rest) := takeDigits isDigit cs
        (c :: ds, rest)
      else ([], c :: cs)
  | [] => ([], [])

/-- A run that begins with a digit. -/
def takeRun? (isDigit : Char → Bool) (cs : List Char) : Option (List Char × List Char) :=
  match cs with
  | c :: _ => if isDigit c then some (takeDigits isDigit cs) else none
  | [] => none

def digitsToBase (base : Nat) (ds : List Char) : Nat :=
  ds.foldl (fun n d => n * base + (Token.hexValue? d).getD 0) 0

/-- The base and the digits that a letter after a zero announces. -/
def baseOf? (c : Char) : Option (Nat × (Char → Bool)) :=
  match c with
  | 'x' => some (16, fun d => (Token.hexValue? d).isSome)
  | 'o' => some (8, fun d => '0' ≤ d && d ≤ '7')
  | 'b' => some (2, fun d => d = '0' || d = '1')
  | _ => none

/-! ### Numbers -/

/-- An integer to another base than ten. -/
def takeBased? (cs : List Char) : Option (Value × List Char) :=
  match cs with
  | '0' :: letter :: rest => do
      let (base, isDigit) ← baseOf? letter
      let (ds, rest) ← takeRun? isDigit rest
      return (.int (digitsToBase base ds), rest)
  | _ => none

/-- The integer part of a number: a single zero, or digits that do not begin with one. -/
def takeInteger? (cs : List Char) : Option (List Char × List Char) :=
  match cs with
  | '0' :: rest => some (['0'], rest)
  | _ => takeRun? Char.isDigit cs

/-- The fraction of a number, if the point is followed by a digit. -/
def takeFraction (cs : List Char) : List Char × List Char :=
  match cs with
  | '.' :: rest => (takeRun? Char.isDigit rest).getD ([], cs)
  | _ => ([], cs)

/-- The exponent of a number, if the mark is followed by one. -/
def takeExponent (cs : List Char) : Option Int × List Char :=
  match cs with
  | mark :: rest =>
      let (negative, body) := takeSign rest
      match if mark = 'e' ∨ mark = 'E' then takeRun? Char.isDigit body else none with
      | some (ds, after) => (some (if negative then -(digitsValue ds : Int) else digitsValue ds), after)
      | none => (none, cs)
  | [] => (none, [])

/-- A number to base ten: an integer unless it has a fraction or an exponent. -/
def takeDecimal (cs : List Char) : Option (Except Fault (Value × List Char)) := do
  let (negative, body) := takeSign cs
  let (whole, rest) ← takeInteger? body
  let (fraction, rest) := takeFraction rest
  let (exponent, rest) := takeExponent rest
  if fraction.isEmpty && exponent.isNone then
    if maxIntegerDigits < whole.length then return .error (.badValue (.tooManyDigits whole.length))
    return .ok (.int (if negative then -(digitsValue whole : Int) else digitsValue whole), rest)
  return .ok (.real (Binary64.ofDecimal negative (digitsValue (whole ++ fraction))
    (exponent.getD 0 - fraction.length)), rest)

/-- The words for infinity and for no number, with an optional sign. -/
def takeSpecial? (cs : List Char) : Option (Value × List Char) :=
  let (negative, body) := takeSign cs
  if "inf".toList.isPrefixOf body then some (.real (.infinity negative), body.drop 3)
  else if "nan".toList.isPrefixOf body then some (.real .nan, body.drop 3)
  else none

/-! ### Moments -/

def takeTwo? (least most : Nat) (cs : List Char) : Option (Nat × List Char) :=
  match cs with
  | a :: b :: rest =>
      if a.isDigit && b.isDigit then
        let n := digitsValue [a, b]
        if least ≤ n ∧ n ≤ most then some (n, rest) else none
      else none
  | _ => none

/-- A fixed character. -/
def takeMark? (mark : Char) (cs : List Char) : Option (List Char) :=
  match cs with
  | c :: rest => if c = mark then some rest else none
  | [] => none

/-- The microseconds after a point; digits beyond the sixth are dropped. -/
def takeMicroseconds (cs : List Char) : Nat × List Char :=
  match cs with
  | '.' :: rest =>
      let ds := rest.takeWhile Char.isDigit
      if ds.isEmpty then (0, cs)
      else (digitsValue ((ds ++ ['0', '0', '0', '0', '0', '0']).take 6), rest.dropWhile Char.isDigit)
  | _ => (0, cs)

/-- A time of day, with seconds. -/
def takeClock? (cs : List Char) : Option (ClockTime × List Char) := do
  let (hour, rest) ← takeTwo? 0 23 cs
  let (minute, rest) ← takeTwo? 0 59 (← takeMark? ':' rest)
  let (second, rest) ← takeTwo? 0 59 (← takeMark? ':' rest)
  let (micros, rest) := takeMicroseconds rest
  return (⟨hour, minute, second, micros⟩, rest)

/-- A distance from universal time, in minutes. -/
def takeOffset (cs : List Char) : Option Int × List Char :=
  match cs with
  | 'Z' :: rest | 'z' :: rest => (some 0, rest)
  | sign :: rest =>
      let distance : Option (Nat × List Char) := do
        let (hours, rest) ← takeTwo? 0 23 rest
        let (minutes, rest) ← takeTwo? 0 59 (← takeMark? ':' rest)
        return (hours * 60 + minutes, rest)
      match distance with
      | some (n, after) =>
          if sign = '+' then (some (n : Int), after)
          else if sign = '-' then (some (-(n : Int)), after)
          else (none, cs)
      | none => (none, cs)
  | [] => (none, [])

/-- The digits of a calendar date. -/
def takeDate? (cs : List Char) : Option (CalendarDate × List Char) := do
  let year := cs.take 4
  if year.length < 4 || !year.all Char.isDigit then none
  let (month, rest) ← takeTwo? 1 12 (← takeMark? '-' (cs.drop 4))
  let (day, rest) ← takeTwo? 1 31 (← takeMark? '-' rest)
  return (⟨digitsValue year, month, day⟩, rest)

def takeClockAfterDate? (cs : List Char) : Option (ClockTime × List Char) :=
  match cs with
  | c :: rest => if c = 'T' ∨ c = 't' ∨ c = ' ' then takeClock? rest else none
  | [] => none

/-- A date, alone or with a time of day; it has to exist. -/
def takeMoment (cs : List Char) : Option (Except Fault (Value × List Char)) := do
  let (date, rest) ← takeDate? cs
  let (moment, rest) := match takeClockAfterDate? rest with
    | some (clock, rest) =>
        let (offset, rest) := takeOffset rest
        (Moment.dateTime date clock offset, rest)
    | none => (Moment.date date, rest)
  return if date.exists then .ok (.moment moment, rest) else .error malformed

/-! ### All of them -/

/-- A moment or a number. -/
def takeScalar (cs : List Char) : Except Fault (Value × List Char) :=
  match takeMoment cs with
  | some r => r
  | none =>
      match takeClock? cs with
      | some (clock, rest) => .ok (.moment (.time clock), rest)
      | none =>
          match takeBased? cs with
          | some r => .ok r
          | none =>
              match takeDecimal cs with
              | some r => r
              | none =>
                  match takeSpecial? cs with
                  | some r => .ok r
                  | none => .error malformed

end ScoreGate.Toml
