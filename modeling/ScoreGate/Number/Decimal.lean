import ScoreGate.Number.Binary64

/-!
# Decimal digits

A decimal is `digits · 10^exponent`.  This module finds the decimal exponent of a ratio, rounds a ratio to a
number of places or of significant digits, and finds the shortest decimal that reads back as a given number:
on the grid of one digit, then of two, and so on, the two neighbours of the exact value are tried, and the first
grid with a neighbour that reads back wins.  Of two such neighbours the nearer is taken, of two equally near ones
the even one.
-/

namespace ScoreGate

/-- A decimal: `digits · 10^exponent`. -/
structure Decimal where
  digits : Nat
  exponent : Int
  deriving DecidableEq, Repr

/-- The decimal digits of a natural number, most significant first. -/
def decimalDigits (n : Nat) : List Char := Nat.toDigits 10 n

/-- The exponent of the largest power of ten that is at most `a / b`, for positive `a` and `b`. -/
def ratioLog10 (a b : Nat) : Int :=
  let d : Int := ((decimalDigits a).length : Int) - (decimalDigits b).length
  if 0 ≤ d then (if b * Nat.pow 10 d.toNat ≤ a then d else d - 1)
  else (if b ≤ a * Nat.pow 10 (-d).toNat then d else d - 1)

/-- The ratio `a / b` counted in units of `10^unit`, again as a ratio. -/
def inUnits (a b : Nat) (unit : Int) : Nat × Nat :=
  if 0 ≤ unit then (a, b * Nat.pow 10 unit.toNat) else (a * Nat.pow 10 (-unit).toNat, b)

namespace Decimal

/-- Moves the zeros that end the digits into the exponent, at most `fuel` of them. -/
def trimUpTo : Nat → Decimal → Decimal
  | 0, d => d
  | fuel + 1, d =>
      if d.digits ≠ 0 ∧ d.digits % 10 = 0 then trimUpTo fuel ⟨d.digits / 10, d.exponent + 1⟩ else d

/-- The same value with no zero at the end of its digits. -/
def trim (d : Decimal) : Decimal :=
  trimUpTo (decimalDigits d.digits).length d

/-- The ratio `a / b` rounded to a multiple of `10^unit`, ties to the even multiple. -/
def round (a b : Nat) (unit : Int) : Decimal :=
  let (p, q) := inUnits a b unit
  ⟨divEven p q, unit⟩

/-- The ratio `a / b` rounded to this many significant digits. -/
def roundSignificant (a b count : Nat) : Decimal :=
  round a b (ratioLog10 a b - count + 1)

/-- The neighbour of `a / b` on the grid of `10^unit` that `back` accepts, the nearer if there are two. -/
def neighbour? (back : Decimal → Bool) (a b : Nat) (unit : Int) : Option Decimal :=
  let (p, q) := inUnits a b unit
  let below : Decimal := ⟨p / q, unit⟩
  let above : Decimal := ⟨p / q + 1, unit⟩
  match back below, back above with
  | true, true => some ⟨divEven p q, unit⟩
  | true, false => some below
  | false, true => some above
  | false, false => none

/-- The first grid of at least `count` and at most `count + fuel` digits with a neighbour that `back` accepts. -/
def firstGrid (back : Decimal → Bool) (a b count : Nat) : Nat → Decimal
  | 0 => roundSignificant a b count
  | fuel + 1 =>
      match neighbour? back a b (ratioLog10 a b - count + 1) with
      | some d => d
      | none => firstGrid back a b (count + 1) fuel

end Decimal

/-- The shortest decimal that reads back as the positive number with this significand and exponent. -/
def Binary64.shortest (m : Nat) (e : Int) : Decimal :=
  let (a, b) := Binary64.ratio m e
  let reads (d : Decimal) : Bool := Binary64.ofDecimal false d.digits d.exponent = Binary64.pack false m e
  (Decimal.firstGrid reads a b 1 16).trim

/-! ### Written forms -/

namespace Decimal

/-- Decimal exponents from this one up are written with an exponent mark. -/
def positionalEnd : Int := 16

/-- An exponent with its sign and at least two digits. -/
def exponentText (x : Int) : List Char :=
  let ds := decimalDigits x.natAbs
  (if x < 0 then '-' else '+') :: (if ds.length < 2 then '0' :: ds else ds)

/-- One digit, a point and the other digits if there are any, and the exponent. -/
def scientific (ds : List Char) (x : Int) : List Char :=
  let mantissa := match ds with
    | [] => []
    | [d] => [d]
    | d :: rest => d :: '.' :: rest
  mantissa ++ 'e' :: exponentText x

/-- Digits with the point after the first `point` of them, zeros filled in; nothing after the point is left out. -/
def positional (ds : List Char) (point : Int) : List Char :=
  if point ≤ 0 then '0' :: '.' :: (List.replicate (-point).toNat '0' ++ ds)
  else if point < ds.length then ds.take point.toNat ++ '.' :: ds.drop point.toNat
  else ds ++ List.replicate (point.toNat - ds.length) '0'

/-- The form that reads back: positional between `10^-4` and `10^16`, always marked as no integer. -/
def readable (d : Decimal) : List Char :=
  let ds := decimalDigits d.digits
  let point : Int := ds.length + d.exponent
  let x := point - 1
  if x < -4 ∨ positionalEnd ≤ x then scientific ds x
  else
    let text := positional ds point
    if text.contains '.' then text else text ++ ['.', '0']

/-- The form without needless zeros: positional while the exponent is at least -4 and less than `count`. -/
def general (d : Decimal) (count : Nat) : List Char :=
  let t := d.trim
  let ds := decimalDigits t.digits
  let point : Int := ds.length + t.exponent
  let x := point - 1
  if x < -4 ∨ (count : Int) ≤ x then scientific ds x else positional ds point

/-- The form with exactly `places` digits after the point, for a decimal in units of `10^-places`. -/
def fixed (d : Decimal) (places : Nat) : List Char :=
  let ds := decimalDigits d.digits
  let padded := List.replicate (places + 1 - ds.length) '0' ++ ds
  let whole := padded.take (padded.length - places)
  if places = 0 then whole else whole ++ '.' :: padded.drop (padded.length - places)

end Decimal

namespace Binary64

private def signed (negative : Bool) (cs : List Char) : String :=
  String.ofList (if negative then '-' :: cs else cs)

/-- The text of a value by the rule for its magnitude `a / b`, zero included. -/
private def write (magnitude : Nat → Int → List Char) : Binary64 → String
  | .nan => "nan"
  | .infinity negative => signed negative "inf".toList
  | .finite negative m e _ => signed negative (magnitude m e)

/-- The shortest text that reads back as the same number. -/
def text (x : Binary64) : String :=
  x.write fun m e => if m = 0 then "0.0".toList else (shortest m e).readable

def fixedText (places : Nat) (x : Binary64) : String :=
  x.write fun m e =>
    let (a, b) := ratio m e
    (Decimal.round a b (-(places : Int))).fixed places

/-- The text with at most six significant digits. -/
def generalText (x : Binary64) : String :=
  x.write fun m e =>
    if m = 0 then ['0']
    else
      let (a, b) := ratio m e
      (Decimal.roundSignificant a b 6).general 6

/-- The number nearest to the value rounded to this many places. -/
def roundPlaces (places : Nat) : Binary64 → Binary64
  | .finite negative m e _ =>
      let (a, b) := ratio m e
      let d := Decimal.round a b (-(places : Int))
      ofDecimal negative d.digits d.exponent
  | x => x

end Binary64

end ScoreGate
