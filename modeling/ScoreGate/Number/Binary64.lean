/-!
# Binary floating-point numbers of 64 bits

A finite number is `± m · 2^e` with a 53-bit significand `m`; beside the finite ones there are two infinities
and one value that is no number.  All arithmetic is exact arithmetic on rationals followed by one rounding,
to nearest with ties to the even significand, so that a law of rounding is a law of every operation.

* `divEven`: a quotient of natural numbers rounded to nearest, ties to even.
* `Binary64.ofRatio`: the number nearest to a ratio, an infinity when the ratio is out of range.
* `Place`: where a number lies on the line of rationals with two ends; all order tests go through it.
-/

namespace ScoreGate

/-! ### Rounding a quotient -/

/-- The quotient `a / b` rounded to the nearest natural number, a tie to the even one. -/
def divEven (a b : Nat) : Nat :=
  let q := a / b
  let r := a % b
  if 2 * r < b then q
  else if b < 2 * r then q + 1
  else if q % 2 = 0 then q else q + 1

/-- The exponent of the largest power of two that is at most `a / b`, for positive `a` and `b`. -/
def ratioLog2 (a b : Nat) : Int :=
  let d : Int := (a.log2 : Int) - b.log2
  if 0 ≤ d then (if b * Nat.pow 2 d.toNat ≤ a then d else d - 1)
  else (if b ≤ a * Nat.pow 2 (-d).toNat then d else d - 1)

/-! ### The numbers -/

/-- Two to the 52: from here on a significand has all its 53 bits. -/
def minSignificand : Nat := 4503599627370496

/-- Two to the 53: significands stay below. -/
def maxSignificand : Nat := 9007199254740992

/-- The significand and exponent pairs in use: every finite magnitude has exactly one. -/
def Binary64.Canonical (m : Nat) (e : Int) : Prop :=
  m < maxSignificand ∧ -1074 ≤ e ∧ e ≤ 971 ∧ (minSignificand ≤ m ∨ e = -1074)

instance (m : Nat) (e : Int) : Decidable (Binary64.Canonical m e) := by
  unfold Binary64.Canonical
  infer_instance

/-- A binary floating-point number of 64 bits. -/
inductive Binary64 where
  | nan
  | infinity (negative : Bool)
  | finite (negative : Bool) (significand : Nat) (exponent : Int)
      (canonical : Binary64.Canonical significand exponent)
  deriving DecidableEq, Repr

namespace Binary64

/-- The finite number with this significand and exponent; an infinity when the pair is out of range. -/
def pack (negative : Bool) (m : Nat) (e : Int) : Binary64 :=
  if h : Canonical m e then .finite negative m e h else .infinity negative

/-- Zero of either sign. -/
def zero (negative : Bool) : Binary64 :=
  .finite negative 0 (-1074) (by decide)

instance : Inhabited Binary64 := ⟨zero false⟩

/-- The significand and exponent nearest to `a / b`, for positive `a` and `b`. -/
def nearest (a b : Nat) : Nat × Int :=
  let e := max (ratioLog2 a b - 52) (-1074)
  let m := if 0 ≤ e then divEven a (b * Nat.pow 2 e.toNat) else divEven (a * Nat.pow 2 (-e).toNat) b
  if m = maxSignificand then (minSignificand, e + 1) else (m, e)

/-- The number nearest to `± a / b`. -/
def ofRatio (negative : Bool) (a b : Nat) : Binary64 :=
  if a = 0 then zero negative
  else
    let (m, e) := nearest a b
    pack negative m e

/-- The number nearest to a rational. -/
def ofRat (q : Rat) : Binary64 :=
  ofRatio (q < 0) q.num.natAbs q.den

/-- The number nearest to an integer. -/
def ofInt (n : Int) : Binary64 :=
  ofRatio (n < 0) n.natAbs 1

/-- The number nearest to `± digits · 10^exponent`.  Far out of range the power of ten is not computed. -/
def ofDecimal (negative : Bool) (digits : Nat) (exponent : Int) : Binary64 :=
  if digits = 0 then zero negative
  else
    let top : Int := exponent + (digits.log2 / 3 + 1 : Nat)
    if 400 < exponent then .infinity negative
    else if top < -400 then zero negative
    else if 0 ≤ exponent then ofRatio negative (digits * Nat.pow 10 exponent.toNat) 1
    else ofRatio negative digits (Nat.pow 10 (-exponent).toNat)

/-- The magnitude of a finite number as a ratio of natural numbers. -/
def ratio (m : Nat) (e : Int) : Nat × Nat :=
  if 0 ≤ e then (m * Nat.pow 2 e.toNat, 1) else (m, Nat.pow 2 (-e).toNat)

/-- The exact value of a finite number. -/
def finiteValue (negative : Bool) (m : Nat) (e : Int) : Rat :=
  let (a, b) := ratio m e
  mkRat (if negative then -(a : Int) else a) b

def value? : Binary64 → Option Rat
  | .finite negative m e _ => some (finiteValue negative m e)
  | _ => none

/-- The sign bit; a value that is no number has none. -/
def isNegative : Binary64 → Bool
  | .nan => false
  | .infinity negative => negative
  | .finite negative _ _ _ => negative

/-! ### Arithmetic -/

def neg : Binary64 → Binary64
  | .nan => .nan
  | .infinity negative => .infinity (!negative)
  | .finite negative m e h => .finite (!negative) m e h

def abs : Binary64 → Binary64
  | .nan => .nan
  | .infinity _ => .infinity false
  | .finite _ m e h => .finite false m e h

/-- The rounded sum.  An exact zero is negative only when both terms are. -/
def add : Binary64 → Binary64 → Binary64
  | .nan, _ | _, .nan => .nan
  | .infinity a, .infinity b => if a = b then .infinity a else .nan
  | .infinity a, _ => .infinity a
  | _, .infinity b => .infinity b
  | .finite a m e _, .finite b n f _ =>
      let q := finiteValue a m e + finiteValue b n f
      if q = 0 then zero (a && b) else ofRat q

def sub (x y : Binary64) : Binary64 := add x (neg y)

/-- The rounded product. -/
def mul : Binary64 → Binary64 → Binary64
  | .nan, _ | _, .nan => .nan
  | .infinity a, .infinity b => .infinity (a != b)
  | .infinity a, .finite b n _ _ => if n = 0 then .nan else .infinity (a != b)
  | .finite a m _ _, .infinity b => if m = 0 then .nan else .infinity (a != b)
  | .finite a m e _, .finite b n f _ =>
      let (p, q) := ratio m e
      let (r, s) := ratio n f
      ofRatio (a != b) (p * r) (q * s)

/-- The rounded quotient by a positive natural number. -/
def divNat : Binary64 → Nat → Binary64
  | .nan, _ => .nan
  | .infinity a, _ => .infinity a
  | .finite a m e _, k =>
      let (p, q) := ratio m e
      ofRatio a p (q * k)

/-- The integer part of a finite number: the fraction is dropped. -/
def truncate? (x : Binary64) : Option Int :=
  x.value?.map fun q => Int.tdiv q.num q.den

end Binary64

/-! ### Order -/

/-- A place on the line of rationals with two ends, or none at all. -/
inductive Place where
  | undefined
  | bottom
  | point (q : Rat)
  | top
  deriving DecidableEq

namespace Place

/-- Strictly before; nothing is before or after an undefined place. -/
def lt : Place → Place → Bool
  | .undefined, _ | _, .undefined => false
  | .bottom, .bottom => false
  | .bottom, _ => true
  | .point p, .point q => decide (p < q)
  | .point _, .top => true
  | _, _ => false

/-- At or before; nothing is before or after an undefined place. -/
def le : Place → Place → Bool
  | .undefined, _ | _, .undefined => false
  | .bottom, _ => true
  | .point p, .point q => decide (p ≤ q)
  | _, .top => true
  | _, _ => false

end Place

namespace Binary64

def place : Binary64 → Place
  | .nan => .undefined
  | .infinity true => .bottom
  | .infinity false => .top
  | .finite negative m e _ => .point (finiteValue negative m e)

end Binary64

end ScoreGate
