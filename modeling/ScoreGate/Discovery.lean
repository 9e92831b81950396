import ScoreGate.Analysis
import ScoreGate.Path.Glob
import ScoreGate.Workspace

/-!
# Discovery

Which files below a directory are sources: files with one of some endings that no directory hides and no pattern
excludes.  They are visited directory by directory, the files of a directory before its subdirectories and each by
name; a limit on their number cuts the visit short, and the result is sorted by path.

* `Tree.candidates`: the files of the visit, before patterns and limit.
* `gather`: the visit itself.
* `findSources`, `analyzeFiles`: the actions.
-/

namespace ScoreGate

/-! ### Candidates -/

/-- Directories of installed or generated files. -/
def generatedDirectories : List String := ["node_modules", "dist", "build", "coverage", "__pycache__"]

/-- Directories that are never entered. -/
def isHiddenDirectory (name : String) : Bool :=
  generatedDirectories.contains name || name.toList.head? = some '.'

/-- The files below a location, each as the names that lead to it from there. -/
def Tree.filesBelow (t : Tree) (loc : Location) : List (List String) :=
  t.files.filterMap fun l => if loc.isPrefixOf l && loc.length < l.length then some (l.drop loc.length) else none

/-- The order of a visit: in each directory first the files, then the subdirectories, each by name. -/
def visitLe : List String → List String → Bool
  | [], _ => true
  | _, [] => false
  | [a], [b] => !(b < a : Bool)
  | [_], _ => true
  | _, [_] => false
  | a :: as, b :: bs => if a = b then visitLe as bs else (a < b : Bool)

/-- Whether the names of some extensions contain the ending of a file's name. -/
def hasExtension (extensions : List Value) (names : List String) : Bool :=
  extensions.any fun e => e.sameName (.text (Path.suffixOf (names.getLastD "")))

/-- The files below a location with one of the extensions that no directory hides, in the order of the visit. -/
def Tree.candidates (t : Tree) (loc : Location) (extensions : List Value) : List (List String) :=
  ((t.filesBelow loc).filter fun names =>
    !(names.dropLast.any isHiddenDirectory) && hasExtension extensions names).mergeSort visitLe

/-! ### The visit -/

/-- What a visit has come to. -/
structure Gathered where
  found : List (List String)
  skipped : List (List String)
  /-- whether the limit ended the visit -/
  full : Bool
  /-- the fault that ended the visit -/
  fault : Option Fault

def Gathered.start : Gathered := ⟨[], [], false, none⟩

/-- Goes through candidates: one that is excluded is skipped, and one more than there is room for ends the visit. -/
def gather (excluded : List String → Except Fault Bool) (room : Nat → Bool) :
    List (List String) → Gathered → Gathered
  | [], g => g
  | names :: rest, g =>
      match excluded names with
      | .error fault => { g with fault := some fault }
      | .ok true => gather excluded room rest { g with skipped := g.skipped ++ [names] }
      | .ok false =>
          if room g.found.length then gather excluded room rest { g with found := g.found ++ [names] }
          else { g with full := true }

/-- Whether one more file fits after so many. -/
def roomFor (limit : Option Number) (count : Nat) : Bool :=
  match limit with
  | none => true
  | some m => !m.le (.int count)

/-- Whether a pattern of a list excludes the file of these names. -/
def excludedBy (patterns : Value) (names : List String) : Except Fault Bool := do
  skips ⟨"", names⟩ (← patterns.elements)

/-- The order of locations by their names. -/
def locationLe (a b : List String) : Bool := !(b < a : Bool)

/-- The endings as a set: each has to be able to stand for a name. -/
def extensionSet (extensions : Value) : Except Fault (List Value) := do
  let es ← extensions.elements
  if es.all Value.isName then return es else throw .wrongKind

/-- The sources below a root, which may also be a single file. -/
def findSources (root : Path) (extensions patterns : Value) (limit : Option Number) : Action (List Path) := do
  let extensions ← extensionSet extensions
  if ← Action.isFile root then return [root]
  let w ← get
  let candidates := match w.locate root with
    | .ok loc => w.tree.candidates loc extensions
    | .error _ => []
  let g := gather (excludedBy patterns) (roomFor limit) candidates .start
  for names in g.skipped do
    Action.note .discovery .debug ("Skipped (pattern): " ++ (root.join names).text)
  if let some fault := g.fault then throw (Failure.fault fault)
  if g.full then
    Action.note .discovery .warning ("Reached max files limit (" ++ (limit.getD 0).text ++ ")")
  else
    Action.note .discovery .info ("Discovery complete: " ++ toString g.found.length ++ " files, " ++
      toString g.skipped.length ++ " skipped")
  return (g.found.mergeSort locationLe).map root.join

/-! ### Analysing files -/

/-- The text of a file: UTF-8 with any line ends. -/
def readSource (p : Path) : Action String := do
  if !(← Action.isFile p) then throw (.fileAccess p.text .notFound)
  match (← get).read p with
  | .error o => throw (.fileAccess p.text (.unreadable ⟨o, p.text, none⟩))
  | .ok bytes =>
      match String.fromUTF8? bytes with
      | none => throw (.fileAccess p.text .encoding)
      | some s => return String.ofList (unifyLineEnds s.toList)

/-- The analysis of a file, under the path it was asked for. -/
def analyzeFile (p : Path) : Action FileAnalysis := do
  let a := analyzeText (← readSource p) p.text
  Action.note .analyzer .debug (a.path ++ ": " ++ toString a.counts.total ++ " issues, score " ++
    a.score.total.value.text)
  return a

/-- The analysis of one of several files; what cannot be read is noted and left out. -/
def analyzeListed (p : Path) : Action (Option FileAnalysis) :=
  tryCatch (some <$> analyzeFile p) fun
    | .fileAccess _ cause => do
        Action.note .discovery .warning ("Access error for " ++ p.text ++ ": " ++ cause.label)
        return none
    | other => throw other

def analyzeFiles (ps : List Path) : Action (List FileAnalysis) := do
  let as ← ps.filterMapM analyzeListed
  Action.note .discovery .info ("Analysis complete: " ++ toString as.length ++ " analyzed, " ++
    toString (ps.length - as.length) ++ " errors")
  return as

end ScoreGate
