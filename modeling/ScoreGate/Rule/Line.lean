import ScoreGate.Issue

/-!
# Line rules

A line rule looks for fixed pieces of text in one line; rules do not depend on one another, and each one that matches
gives one issue.  Blank lines and lines that open a comment are never looked at.  There is no parsing: a rule that
matches inside a quoted text matches all the same.

* `LineRule.all`: the table of rules.
* `rulesFor`: the rules that match a line.
* `lineIssues`: their issues.
-/

namespace ScoreGate

/-- What a rule looks for in a line. -/
inductive LinePattern where
  /-- every one of these -/
  | every (needles : List String)
  /-- at least one of these -/
  | some (needles : List String)
  /-- the first and not the second -/
  | without (needle absent : String)
  deriving DecidableEq, Repr

def LinePattern.matches (p : LinePattern) (line : List Char) : Bool :=
  match p with
  | .every needles => needles.all fun n => occursIn n.toList line
  | .some needles => needles.any fun n => occursIn n.toList line
  | .without needle absent => occursIn needle.toList line && !occursIn absent.toList line

/-- A pattern and the issue it gives; some rules hold for component files only. -/
structure LineRule where
  pattern : LinePattern
  message : String
  suggestion : String
  severity : Severity
  kind : IssueKind
  componentsOnly : Bool
  deriving DecidableEq, Repr

namespace LineRule

/-- The rules about expensive operations. -/
def operations : List LineRule := [
  ⟨.every [".map(", ".filter("], "Multiple array operations",
    "Consider combining .map() and .filter() into a single operation or use .reduce()", .medium, .warning, false⟩,
  ⟨.every [".forEach(", "push("], "Inefficient array building",
    "Consider using .map() instead of .forEach() with push()", .medium, .warning, false⟩,
  ⟨.every ["+", "\""], "String concatenation",
    "Consider using template literals (backticks) for better readability", .low, .info, false⟩,
  ⟨.every ["Object.keys(", ".length"], "Object keys length check",
    "Consider using Object.keys(obj).length === 0 for empty object check", .low, .info, false⟩]

/-- The rules about what is started and never stopped. -/
def leaks : List LineRule := [
  ⟨.without "addEventListener(" "removeEventListener(", "Potential memory leak",
    "Make sure to remove event listeners in cleanup functions", .high, .error, false⟩,
  ⟨.without "setInterval(" "clearInterval(", "Potential memory leak",
    "Make sure to clear intervals in cleanup functions", .high, .error, false⟩,
  ⟨.without "setTimeout(" "clearTimeout(", "Potential memory leak",
    "Consider clearing timeouts if component unmounts", .medium, .warning, false⟩]

/-- The rules about work done again and again. -/
def repetition : List LineRule := [
  ⟨.every ["for", "\x7b"], "Loop detected",
    "Check if nested loops can be optimized or replaced with more efficient algorithms", .low, .info, false⟩,
  ⟨.some ["document.querySelector(", "document.getElementById("], "DOM query",
    "Consider caching DOM queries if used multiple times", .medium, .warning, false⟩,
  ⟨.some ["function(", "=>"], "Inline function",
    "Consider moving functions outside render to prevent recreation on each render", .low, .info, false⟩]

/-- The rules for component files. -/
def components : List LineRule := [
  ⟨.every ["useState(", "[]"], "useState initialization",
    "Consider if empty array is the best initial state", .low, .info, true⟩,
  ⟨.every ["useEffect(", "[]"], "useEffect dependencies",
    "Check if empty dependency array is intentional", .medium, .warning, true⟩,
  ⟨.some ["style=\x7b\x7b", "className=\""], "Inline styles/classes",
    "Consider extracting styles and classes to constants", .low, .info, true⟩]

/-- The table of line rules, in the order of their issues. -/
def all : List LineRule := operations ++ leaks ++ repetition ++ components

def issueAt (r : LineRule) (line : { n : Nat // 0 < n }) : Issue :=
  .onLine line r.message r.suggestion r.severity r.kind

end LineRule

def isComponentFile (path : String) : Bool :=
  occursIn ".tsx".toList path.toList || occursIn ".jsx".toList path.toList

/-- Blank lines and lines that open a comment are skipped. -/
def isSkippedLine (line : List Char) : Bool :=
  match strip line with
  | [] => true
  | '/' :: '/' :: _ => true
  | '/' :: '*' :: _ => true
  | _ => false

/-- The rules that match a line, in the order of the table. -/
def rulesFor (components : Bool) (line : List Char) : List LineRule :=
  if isSkippedLine line then []
  else LineRule.all.filter fun r => (components || !r.componentsOnly) && r.pattern.matches line

def lineIssues (components : Bool) (number : { n : Nat // 0 < n }) (line : List Char) : List Issue :=
  (rulesFor components line).map (·.issueAt number)

/-- The issues of a line whose number is given as a value; the number matters only if a rule matches. -/
def checkLine (number : Value) (path : String) (line : String) : Except Fault (List Issue) :=
  (rulesFor (isComponentFile path) line.toList).mapM fun r =>
    Issue.ofParts number (.text r.severity.name) (some (.text r.kind.name)) (.text r.message) (.text r.suggestion)

/-- The issues of consecutive lines, the first of which follows `before` others. -/
def issuesOfLines (components : Bool) : Nat → List (List Char) → List Issue
  | _, [] => []
  | before, l :: ls =>
      lineIssues components ⟨before + 1, before.succ_pos⟩ l ++ issuesOfLines components (before + 1) ls

end ScoreGate
