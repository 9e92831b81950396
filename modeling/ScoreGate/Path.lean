import ScoreGate.Text.Lines

/-!
# Paths

A path is a root and a list of components.  Empty components and single dots are dropped when a path is read, double
dots are kept: where they lead depends on what is there.

* `Path.ofText`, `Path.text`: a path from text and back; a relative path without components is a single dot.
* `Path.name`, `Path.suffix`: the last component and its ending.
* `Path.relativeTo?`: a path as seen from another.
-/

namespace ScoreGate

/-- The root is empty for a relative path, else one or two slashes. -/
structure Path where
  root : String
  parts : List String
  deriving DecidableEq, Repr

namespace Path

/-- Two slashes at the start are a root of their own; any other number but none counts as one. -/
def rootOf : List Char → String
  | '/' :: '/' :: '/' :: _ => "/"
  | '/' :: '/' :: _ => "//"
  | '/' :: _ => "/"
  | _ => ""

/-- The components of a text. -/
def partsOf (cs : List Char) : List String :=
  ((splitOn '/' cs).filter fun p => p ≠ [] && p ≠ ['.']).map String.ofList

def ofText (s : String) : Path := ⟨rootOf s.toList, partsOf s.toList⟩

def text (p : Path) : String :=
  if p.root = "" && p.parts.isEmpty then "."
  else p.root ++ joinText "/" p.parts

/-- The path without components. -/
def here : Path := ⟨"", []⟩

/-- A path with one more component. -/
def child (p : Path) (name : String) : Path := ⟨p.root, p.parts ++ [name]⟩

/-- A path continued by several components. -/
def join (p : Path) (names : List String) : Path := ⟨p.root, p.parts ++ names⟩

/-- The path without its last component. -/
def parent (p : Path) : Path := ⟨p.root, p.parts.dropLast⟩

/-- The last component, or nothing. -/
def name (p : Path) : String := p.parts.getLastD ""

@[simp] theorem parent_child (p : Path) (name : String) : (p.child name).parent = p := by
  simp [parent, child]

@[simp] theorem name_child (p : Path) (name : String) : (p.child name).name = name := by
  simp [Path.name, child, List.getLastD_eq_getLast?]

/-- Different names in one directory are different paths. -/
theorem child_inj {p : Path} {a b : String} : p.child a = p.child b ↔ a = b :=
  ⟨fun h => by simpa using congrArg name h, fun h => h ▸ rfl⟩

/-- The ending of a name from its last dot on; a dot at either end does not count. -/
def suffixOf (name : String) : String :=
  let cs := name.toList
  let tail := (cs.reverse.takeWhile (· ≠ '.')).reverse
  if tail.isEmpty || tail.length + 1 ≥ cs.length then "" else String.ofList ('.' :: tail)

def suffix (p : Path) : String := suffixOf p.name

/-- The components with the root, if there is one, as the first. -/
def steps (p : Path) : List String :=
  if p.root = "" then p.parts else p.root :: p.parts

/-- The path as seen from `base`, if it lies at or below it. -/
def relativeTo? (p base : Path) : Option Path :=
  if base.root = "" ∧ base.parts = [] ∧ p.root ≠ "" then none
  else if base.steps.isPrefixOf p.steps then some ⟨"", p.steps.drop base.steps.length⟩
  else none

/-- The order of paths by components. -/
def le (p q : Path) : Bool := !(q.steps < p.steps : Bool)

end Path

end ScoreGate
