import ScoreGate.Fault
import ScoreGate.Number.Decimal

/-!
# Numbers

A number is an integer of any size or a binary floating-point number; a flag counts as 0 or 1.  Arithmetic on integers
is exact; as soon as one operand is a floating-point number the other is converted and the result is rounded.  Order
tests compare exact values, so no conversion can hide a difference.
-/

namespace ScoreGate

/-- A flag, an integer or a floating-point number. -/
inductive Number where
  | flag (b : Bool)
  | int (n : Int)
  | real (x : Binary64)
  deriving DecidableEq, Repr

namespace Number

instance : Inhabited Number := ⟨.int 0⟩

instance (n : Nat) : OfNat Number n := ⟨.int n⟩

/-- The integer that a flag or an integer stands for. -/
def toInt? : Number → Option Int
  | .flag b => some (if b then 1 else 0)
  | .int n => some n
  | .real _ => none

/-! ### Order -/

def place : Number → Place
  | .flag b => .point (if b then 1 else 0)
  | .int n => .point n
  | .real x => x.place

def lt (x y : Number) : Bool := x.place.lt y.place

def le (x y : Number) : Bool := x.place.le y.place

/-- Equality of exact values: `1`, `1.0` and a set flag are the same. -/
def same (x y : Number) : Bool := x.le y && y.le x

/-- The larger of two numbers; the first unless the second is strictly larger. -/
def max (x y : Number) : Number := if x.lt y then y else x

/-- The smaller of two numbers; the first unless the second is strictly smaller. -/
def min (x y : Number) : Number := if y.lt x then y else x

/-- Whether a number counts as true: all but zero do. -/
def isTrue : Number → Bool
  | .flag b => b
  | .int n => n != 0
  | .real (.finite _ m _ _) => m != 0
  | .real _ => true

def isNegative (x : Number) : Bool := x.lt 0

/-! ### Arithmetic -/

/-- The nearest floating-point number, unless the number is too large to have a finite one. -/
def toReal (x : Number) : Except Fault Binary64 :=
  match x with
  | .real x => .ok x
  | .flag b => .ok (.ofInt (if b then 1 else 0))
  | .int n =>
      match Binary64.ofInt n with
      | .infinity _ => .error .outOfRange
      | x => .ok x

/-- An operation that is exact on integers and rounded on floating-point numbers. -/
def combine (exact : Int → Int → Int) (rounded : Binary64 → Binary64 → Binary64) (x y : Number) :
    Except Fault Number :=
  match x.toInt?, y.toInt? with
  | some m, some n => .ok (.int (exact m n))
  | _, _ => do
      let a ← x.toReal
      let b ← y.toReal
      return .real (rounded a b)

def add : Number → Number → Except Fault Number := combine (· + ·) Binary64.add

def sub : Number → Number → Except Fault Number := combine (· - ·) Binary64.sub

def mul : Number → Number → Except Fault Number := combine (· * ·) Binary64.mul

def abs (x : Number) : Number :=
  match x with
  | .flag b => .int (if b then 1 else 0)
  | .int n => .int n.natAbs
  | .real x => .real x.abs

/-- The quotient by a positive natural number, always a floating-point number; of an integer it is the number nearest
to the exact quotient. -/
def divNat (x : Number) (k : Nat) : Except Fault Binary64 :=
  match x.toInt? with
  | some n =>
      match Binary64.ofRatio (n < 0) n.natAbs k with
      | .infinity _ => .error .outOfRange
      | q => .ok q
  | none => x.toReal.map (·.divNat k)

/-- Rounded to this many places if it is a floating-point number. -/
def roundPlaces (places : Nat) : Number → Number
  | .real x => .real (x.roundPlaces places)
  | .flag b => .int (if b then 1 else 0)
  | x => x

/-- The integer below `x + 1/2`, where the sum is a floating-point number. -/
def roundHalfUp (x : Number) : Except Fault Int := do
  let half : Binary64 := Binary64.ofRatio false 1 2
  match (← x.toReal).add half with
  | .nan => .error (.badValue .undefinedInteger)
  | .infinity _ => .error .outOfRange
  | .finite negative m e _ => .ok (Binary64.finiteValue negative m e).floor

/-! ### Written forms -/

def text : Number → String
  | .flag true => "True"
  | .flag false => "False"
  | .int n => toString n
  | .real x => x.text

/-- Integers from here on have too many digits to be written. -/
def writtenBound : Nat := Nat.pow 10 4300

/-- Whether a number has a written form. -/
def isWritable : Number → Bool
  | .int n => n.natAbs < writtenBound
  | _ => true

def written (x : Number) : Except Fault String :=
  if x.isWritable then .ok x.text else .error (.badValue .hugeInteger)

def fixedText (places : Nat) (x : Number) : Except Fault String :=
  x.toReal.map (·.fixedText places)

/-- The text with at most six significant digits. -/
def generalText (x : Number) : Except Fault String :=
  x.toReal.map (·.generalText)

end Number

end ScoreGate
