import ScoreGate.Issue

/-!
# Scores

A file starts with 100 points.  Every issue costs points by its severity, a file without issues gains some, and so
does a short file, while a long one loses some; the result is kept between 0 and 100 and has a letter grade.  Three
separate axes look at one severity each.

* `Score.ofCounts`: the score of a file from the counts of its issues and its size.
* `scoreNumbers`: the same rule for counts that may be any numbers; it can fail.
* `Grade.of`: the letter of a total.
-/

namespace ScoreGate

/-! ### Points between 0 and 100 -/

/-- Whether a number lies between 0 and 100, ends included. -/
def Number.isPercent (x : Number) : Bool := (0 : Number).le x && x.le 100

/-- A number between 0 and 100. -/
structure Percent where
  value : Number
  within : value.isPercent = true
  deriving DecidableEq, Repr

namespace Percent

theorem isPercent_int {n : Int} (h : 0 ≤ n ∧ n ≤ 100) : (Number.int n).isPercent = true := by
  have h0 : ((0 : Int) : Rat) ≤ (n : Rat) := Rat.intCast_le_intCast.2 h.1
  have h1 : (n : Rat) ≤ ((100 : Int) : Rat) := Rat.intCast_le_intCast.2 h.2
  simp only [Number.isPercent, Number.le, Number.place, Place.le, Bool.and_eq_true, decide_eq_true_eq]
  exact ⟨h0, h1⟩

/-- An integer, brought between 0 and 100. -/
def clamp (n : Int) : Percent :=
  ⟨.int (Max.max 0 (Min.min 100 n)), isPercent_int (by omega)⟩

/-- All the points. -/
def full : Percent := clamp 100

/-- A number between 0 and 100, or the fault that names it. -/
def check (name : String) (x : Number) : Except Fault Percent :=
  if h : x.isPercent = true then .ok ⟨x, h⟩
  else .error (.invalidInput (name ++ " must be in [0, 100], got " ++ x.text))

/-- A value that has to be a number between 0 and 100. -/
def ofValue (name : String) (v : Value) : Except Fault Percent := do
  check name (← v.toNumber)

end Percent

/-! ### Grades -/

/-- The letters, best first. -/
inductive Grade where
  | aPlus
  | a
  | aMinus
  | bPlus
  | b
  | bMinus
  | cPlus
  | c
  | cMinus
  | dPlus
  | d
  | dMinus
  | f
  deriving DecidableEq, Repr

namespace Grade

def letter : Grade → String
  | .aPlus => "A+"
  | .a => "A"
  | .aMinus => "A-"
  | .bPlus => "B+"
  | .b => "B"
  | .bMinus => "B-"
  | .cPlus => "C+"
  | .c => "C"
  | .cMinus => "C-"
  | .dPlus => "D+"
  | .d => "D"
  | .dMinus => "D-"
  | .f => "F"

/-- The least total of each grade but the last. -/
def cutoffs : List (Nat × Grade) := [
  (90, .aPlus), (85, .a), (80, .aMinus), (75, .bPlus), (70, .b), (65, .bMinus),
  (60, .cPlus), (55, .c), (50, .cMinus), (45, .dPlus), (40, .d), (35, .dMinus)]

/-- All grades, best first. -/
def all : List Grade := cutoffs.map Prod.snd ++ [.f]

/-- The place of a grade in the list of all, best first. -/
def rank (g : Grade) : Nat := all.idxOf g

def ofLetter? (s : String) : Option Grade := all.find? fun g => g.letter = s

/-- The first grade whose cutoff the total reaches. -/
def of (total : Number) : Grade :=
  match cutoffs.find? fun entry => (Number.int entry.1).le total with
  | some entry => entry.2
  | none => .f

@[simp] theorem ofLetter?_letter (g : Grade) : ofLetter? g.letter = some g := by
  cases g <;> rfl

end Grade

/-! ### Records -/

/-- The three axes. -/
structure Breakdown where
  memoryLeaks : Percent
  performance : Percent
  codeQuality : Percent
  deriving DecidableEq, Repr

namespace Breakdown

/-- Nothing lost on any axis. -/
def full : Breakdown := ⟨.full, .full, .full⟩

/-- A breakdown from values as they were given, looked at in the order of the axes. -/
def ofValues (memoryLeaks performance codeQuality : Value) : Except Fault Breakdown := do
  let m ← Percent.ofValue "breakdown.memory_leaks" memoryLeaks
  let p ← Percent.ofValue "breakdown.performance" performance
  let c ← Percent.ofValue "breakdown.code_quality" codeQuality
  return ⟨m, p, c⟩

/-- The breakdown with these entries; missing ones are full. -/
def ofEntries (entries : List (String × Value)) : Except Fault Breakdown := do
  Value.onlyNames ["memory_leaks", "performance", "code_quality"] entries
  let axis (name : String) : Value := (Value.lookup name entries).getD (.int 100)
  ofValues (axis "memory_leaks") (axis "performance") (axis "code_quality")

def toValue (b : Breakdown) : Value :=
  .table [("memoryLeaks", .number b.memoryLeaks.value), ("performance", .number b.performance.value),
    ("codeQuality", .number b.codeQuality.value)]

end Breakdown

/-- A total, its letter and the axes. -/
structure Score where
  total : Percent
  grade : Grade
  breakdown : Breakdown
  deriving DecidableEq, Repr

namespace Score

/-- A score from a total and a letter as they were given, with nothing lost on any axis. -/
def ofValues (total grade : Value) : Except Fault Score := do
  let total ← Percent.ofValue "score total" total
  let unknown : Fault := .invalidInput ("unknown grade " ++ grade.literal)
  match grade with
  | .text s =>
      match Grade.ofLetter? s with
      | some g => return ⟨total, g, .full⟩
      | none => throw unknown
  | _ => throw unknown

/-- The score with these entries; both have to be there. -/
def ofEntries (entries : List (String × Value)) : Except Fault Score := do
  Value.onlyNames ["total", "grade"] entries
  match Value.lookup "total" entries, Value.lookup "grade" entries with
  | some total, some grade => ofValues total grade
  | _, _ => throw .wrongKind

def toValue (s : Score) : Value :=
  .table [("total", .number s.total.value), ("grade", .text s.grade.letter), ("breakdown", s.breakdown.toValue)]

end Score

/-! ### Weights -/

/-- What an issue takes from the total. -/
def Severity.deduction : Severity → Nat
  | .high => 15
  | .medium => 8
  | .low => 2

/-- What an issue takes from its own axis. -/
def Severity.axisDeduction : Severity → Nat
  | .high => 20
  | .medium => 10
  | .low => 5

/-- The points for a file without issues. -/
def cleanBonus : Nat := 10

/-- Files below this size are short. -/
def shortFileLines : Nat := 100

/-- Files above this size are long. -/
def longFileLines : Nat := 500

def sizeBonus (lines : Number) : Int :=
  if lines.lt (.int shortFileLines) then 5
  else if (Number.int longFileLines).lt lines then -10
  else 0

/-! ### Scores from counts -/

/-- The points before they are brought between 0 and 100. -/
def IssueCounts.points (c : IssueCounts) (size : Int) : Int :=
  100 - (c.high * Severity.high.deduction + c.medium * Severity.medium.deduction + c.low * Severity.low.deduction : Nat)
    + (if c.total = 0 then cleanBonus else 0 : Nat) + size

/-- What is left of an axis after some issues. -/
def Severity.axis (s : Severity) (count : Nat) : Percent :=
  .clamp (100 - (count * s.axisDeduction : Nat))

/-- The score of a file from the counts of its issues and the points for its size. -/
def Score.ofCounts (c : IssueCounts) (size : Int) : Score :=
  let total := Percent.clamp (c.points size)
  ⟨total, .of total.value, ⟨Severity.high.axis c.high, Severity.medium.axis c.medium, Severity.low.axis c.low⟩⟩

def computeScore (issues : List Issue) (lines : Number) : Score :=
  .ofCounts (.of issues) (sizeBonus lines)

/-! ### Scores from any numbers -/

/-- What is left of an axis, for a count that may be any number. -/
def Severity.axisNumber (s : Severity) (name : String) (count : Number) : Except Fault Percent := do
  let left ← (100 : Number).sub (← count.mul (.int s.axisDeduction))
  Percent.check name (.int (← (Number.max 0 left).roundHalfUp))

/-- The rule of `Score.ofCounts` for counts that may be any numbers, rounded to integers at the end. -/
def scoreNumbers (high medium low lines : Number) : Except Fault Score := do
  let lostHigh ← high.mul (.int Severity.high.deduction)
  let lostMedium ← medium.mul (.int Severity.medium.deduction)
  let lostLow ← low.mul (.int Severity.low.deduction)
  let lost ← (← lostHigh.add lostMedium).add lostLow
  let count ← (← high.add medium).add low
  let clean : Nat := if count.same 0 then cleanBonus else 0
  let raw ← (← (← (100 : Number).sub lost).add (.int clean)).add (.int (sizeBonus lines))
  let total ← (Number.max 0 (Number.min 100 raw)).roundHalfUp
  let m ← Severity.high.axisNumber "breakdown.memory_leaks" high
  let p ← Severity.medium.axisNumber "breakdown.performance" medium
  let c ← Severity.low.axisNumber "breakdown.code_quality" low
  let total ← Percent.check "score total" (.int total)
  return ⟨total, .of total.value, ⟨m, p, c⟩⟩

end ScoreGate
