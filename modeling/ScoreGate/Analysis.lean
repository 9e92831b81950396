import ScoreGate.Rule.File

/-!
# Analyses

The analysis of a file holds its issues, how many there are, and its score.  Several analyses have a project score: the mean of
their totals with its grade, and the names of the best and the worst file.

* `analyzeText`: the analysis of a text.
* `mean`: the mean of some values, 100 if there are none.
* `projectScore`: the score of several analyses.
-/

namespace ScoreGate

structure FileAnalysis where
  path : String
  issues : List Issue
  counts : IssueCounts
  score : Score
  totalLines : Nat
  deriving Repr

namespace FileAnalysis

def issuesWith (a : FileAnalysis) (s : Severity) : List Issue := a.issues.filter fun i => i.severity = s

def toValue (a : FileAnalysis) : Value :=
  .table [("filePath", .text a.path), ("issues", .list (a.issues.map Issue.toValue)),
    ("summary", (IssueSummary.ofCounts a.counts).toValue), ("score", a.score.toValue)]

end FileAnalysis

/-- All issues of a text: those of its lines, then those of the whole. -/
def textIssues (path : String) (cs : List Char) : List Issue :=
  issuesOfLines (isComponentFile path) 0 (lines cs) ++ fileIssues path cs

def analyzeText (content path : String) : FileAnalysis :=
  let issues := textIssues path content.toList
  let size := (lines content.toList).length
  ⟨path, issues, .of issues, computeScore issues (.int size), size⟩

/-! ### Several files -/

/-- The mean of values that have to be numbers; where there is nothing, nothing is lost, and the mean is 100. -/
def mean (vs : List Value) : Except Fault Binary64 :=
  if vs.isEmpty then .ok (.ofInt 100)
  else do
    let sum ← vs.foldlM (fun (s : Number) v => do s.add (← v.toNumber)) 0
    sum.divNat vs.length

/-- The first item whose number no other exceeds. -/
def firstBest (key : α → Number) (x : α) (xs : List α) : α :=
  xs.foldl (fun best y => if (key best).lt (key y) then y else best) x

/-- The first item whose number exceeds no other. -/
def firstWorst (key : α → Number) (x : α) (xs : List α) : α :=
  xs.foldl (fun worst y => if (key y).lt (key worst) then y else worst) x

structure ProjectScore where
  total : Int
  grade : Grade
  bestFile : String
  worstFile : String
  totalFiles : Nat
  averageScore : Int
  filesWithIssues : Nat
  deriving DecidableEq, Repr

/-- The score of several analyses; the letter is that of the mean before it is rounded. -/
def projectScore (as : List FileAnalysis) : Except Fault ProjectScore :=
  match as with
  | [] => .ok ⟨100, .aPlus, "N/A", "N/A", 0, 100, 0⟩
  | a :: rest => do
      let key (a : FileAnalysis) := a.score.total.value
      let average : Number := .real (← mean (as.map fun a => .number (key a)))
      return {
        total := ← average.roundHalfUp
        grade := .of average
        bestFile := (firstBest key a rest).path
        worstFile := (firstWorst key a rest).path
        totalFiles := as.length
        averageScore := ← average.roundHalfUp
        filesWithIssues := as.countP fun a => 0 < a.counts.total }

end ScoreGate
