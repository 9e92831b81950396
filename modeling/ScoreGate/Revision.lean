import ScoreGate.Workspace

/-!
# Revisions

The branch and the commit that a scan belongs to: what the version control answers, else what the variables of the
build service say, else a word for not knowing.
-/

namespace ScoreGate

namespace Revision

def unknown : String := "unknown"

/-- The variables that may name the branch, and those that may name the commit. -/
def branchVariables : List String := ["GITHUB_REF_NAME", "CI_COMMIT_REF_NAME"]

def commitVariables : List String := ["GITHUB_SHA", "CI_COMMIT_SHA"]

/-- The text of what a program printed: UTF-8 with any line ends. -/
def printed (bytes : ByteArray) : Except Failure String :=
  match String.fromUTF8? bytes with
  | none => .error .notUtf8
  | some s => .ok (String.ofList (unifyLineEnds s.toList))

/-- What a reply says, without the blanks around it, if it says anything.  All that was printed has to be text, whatever the
code is. -/
def answer : Reply → Except Failure (Option String)
  | .silent => .ok none
  | .refused => .error .system
  | .ended code output errors => do
      let said ← printed output
      let _ ← printed errors
      let cs := strip said.toList
      return if code ≠ 0 || cs.isEmpty then none else some (String.ofList cs)

/-- Asks the version control about a path. -/
def ask (question : Repository → Path → Reply) (p : Path) : Action (Option String) := do
  if p.text.toList.contains '\x00' then throw (Failure.fault (.badValue .nulInPath))
  answer (question (← get).repository p)

/-- The first of some variables that is set to anything. -/
def fromVariables (w : Workspace) (names : List String) : Option String :=
  names.findSome? fun name => (w.valueOf? name).filter fun value => !value.isEmpty

/-- What the variables say, noted under `what`, else the word for not knowing. -/
def fallback (what : String) (names : List String) : Action String := do
  match fromVariables (← get) names with
  | some value =>
      Action.note .revision .debug (what ++ " taken from CI environment: " ++ value)
      return value
  | none => return unknown

/-- The branch below a path; a detached head is no branch. -/
def branch (p : Path) : Action String := do
  match ← ask Repository.branch p with
  | some name => if name = "HEAD" then fallback "Branch" branchVariables else return name
  | none => fallback "Branch" branchVariables

/-- The commit below a path. -/
def commit (p : Path) : Action String := do
  match ← ask Repository.commit p with
  | some name => return name
  | none => fallback "Commit" commitVariables

end Revision

end ScoreGate
