/-!
# Random characters

A source of the characters that make identifiers unique.  It hands out the characters it was given; when they run out
it goes on with the nine digits to base 36 of a number that it counts up.
-/

namespace ScoreGate

/-- Characters still to be drawn, and the number that the next ones are taken from. -/
structure Source where
  pending : List Char
  next : Nat
  deriving DecidableEq, Repr

/-- How many characters a suffix has. -/
def suffixLength : Nat := 9

def digit36 (n : Nat) : Char :=
  if n < 10 then Char.ofNat (0x30 + n) else Char.ofNat (0x57 + n)

/-- The last digits of a number to base 36, least significant first. -/
def lastDigits36 : Nat → Nat → List Char
  | 0, _ => []
  | width + 1, n => digit36 (n % 36) :: lastDigits36 width (n / 36)

namespace Source

def nextChar (s : Source) : Char × Source :=
  match s.pending with
  | c :: rest => (c, { s with pending := rest })
  | [] =>
      match (lastDigits36 suffixLength s.next).reverse with
      | c :: rest => (c, ⟨rest, s.next + 1⟩)
      | [] => ('0', ⟨[], s.next + 1⟩)

/-- The next characters and the source after them. -/
def draw (s : Source) : Nat → List Char × Source
  | 0 => ([], s)
  | count + 1 =>
      let (c, s) := s.nextChar
      let (cs, s) := s.draw count
      (c :: cs, s)

end Source

end ScoreGate
