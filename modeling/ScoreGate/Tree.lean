import ScoreGate.Fault
import ScoreGate.Path

/-!
# Trees of files

A tree holds the files and directories of a file system, each under its location: the list of names that leads to it from
the top.  The top directory is always there, and leads up to itself.  Whoever works in a tree stands at its top, so a path
leads to the same place with a root and without one.

* `Tree.find?`, `Tree.put`, `Tree.erase`: what is at a location, and how to change it.
* `Tree.locate`: where a path leads.
* `Tree.children`, `Tree.files`: what a directory holds, and where all files are.
-/

namespace ScoreGate

/-- The names from the top directory down. -/
abbrev Location := List String

inductive Node where
  | directory
  | file (bytes : ByteArray)

instance : DecidableEq Node
  | .directory, .directory => isTrue rfl
  | .directory, .file _ => isFalse nofun
  | .file _, .directory => isFalse nofun
  | .file a, .file b =>
      match ByteArray.instDecidableEq a b with
      | isTrue h => isTrue (h ▸ rfl)
      | isFalse h => isFalse fun e => h (Node.file.inj e)

/-- The failure that an obstacle is where nobody handles it. -/
def Obstacle.failure : Obstacle → Failure
  | .missing => .fileMissing
  | .notDirectory => .notDirectory
  | .isDirectory => .isDirectory
  | .nameTooLong => .system
  | .nulInName => .fault (.badValue .nulInPath)
  | .occupied => .fileExists
  | .refused => .system

/-- The longest name and the longest path that a file system takes, in bytes. -/
structure NameLimits where
  name : Nat
  path : Nat

/-- What most file systems take. -/
def NameLimits.usual : NameLimits := ⟨255, 4095⟩

/-- The entries below the top directory. -/
structure Tree where
  entries : List (Location × Node)

namespace Tree

def empty : Tree := ⟨[]⟩

instance : Inhabited Tree := ⟨empty⟩

/-! ### Entries -/

def findIn (loc : Location) : List (Location × Node) → Option Node
  | [] => none
  | (l, n) :: es => if l = loc then some n else findIn loc es

def putIn (loc : Location) (node : Node) : List (Location × Node) → List (Location × Node)
  | [] => [(loc, node)]
  | (l, n) :: es => if l = loc then (l, node) :: es else (l, n) :: putIn loc node es

def find? (t : Tree) (loc : Location) : Option Node :=
  if loc = [] then some .directory else findIn loc t.entries

def put (t : Tree) (loc : Location) (node : Node) : Tree := ⟨putIn loc node t.entries⟩

def erase (t : Tree) (loc : Location) : Tree := ⟨t.entries.filter fun e => e.1 ≠ loc⟩

def eraseBelow (t : Tree) (loc : Location) : Tree := ⟨t.entries.filter fun e => !loc.isPrefixOf e.1⟩

@[simp] theorem find?_nil (t : Tree) : t.find? [] = some .directory := rfl

theorem findIn_putIn_self (loc : Location) (n : Node) (es : List (Location × Node)) :
    findIn loc (putIn loc n es) = some n := by
  induction es with
  | nil => simp [putIn, findIn]
  | cons e es ih =>
      by_cases h : e.1 = loc
      · simp [putIn, findIn, h]
      · simp [putIn, findIn, h, ih]

theorem findIn_putIn_of_ne {loc other : Location} (h : other ≠ loc) (n : Node) (es : List (Location × Node)) :
    findIn other (putIn loc n es) = findIn other es := by
  induction es with
  | nil => simp [putIn, findIn, Ne.symm h]
  | cons e es ih =>
      by_cases he : e.1 = loc
      · simp [putIn, findIn, he, Ne.symm h]
      · simp [putIn, findIn, he, ih]

theorem find?_put_self {t : Tree} {loc : Location} (h : loc ≠ []) (n : Node) :
    (t.put loc n).find? loc = some n := by
  simp [find?, put, h, findIn_putIn_self]

/-- Putting something somewhere changes nothing elsewhere. -/
theorem find?_put_of_ne {t : Tree} {loc other : Location} (h : other ≠ loc) (n : Node) :
    (t.put loc n).find? other = t.find? other := by
  simp [find?, put, findIn_putIn_of_ne h]

theorem findIn_filter (p : Location → Bool) (loc : Location) (es : List (Location × Node)) :
    findIn loc (es.filter fun e => p e.1) = if p loc then findIn loc es else none := by
  induction es with
  | nil => simp [findIn]
  | cons e es ih =>
      by_cases he : e.1 = loc
      · by_cases hp : p loc <;> simp [findIn, he, hp, ih]
      · by_cases hp : p e.1 <;> simp [findIn, he, hp, ih]

/-- Erasing something takes away what was there, and nothing else. -/
theorem find?_erase {t : Tree} {loc : Location} (other : Location) (h : loc ≠ []) :
    (t.erase loc).find? other = if other = loc then none else t.find? other := by
  have key := findIn_filter (fun l => decide (l ≠ loc)) other t.entries
  by_cases ho : other = loc
  · subst ho
    simp_all [find?, erase]
  · simp_all [find?, erase]

/-! ### Directories -/

/-- The names in a directory, with what they stand for, in the order of the entries. -/
def children (t : Tree) (loc : Location) : List (String × Node) :=
  t.entries.filterMap fun e =>
    match e.1.getLast? with
    | some name => if e.1.dropLast = loc then some (name, e.2) else none
    | none => none

/-- Whether there is a directory at a location. -/
def isDirectory (t : Tree) (loc : Location) : Bool :=
  t.find? loc = some .directory

def files (t : Tree) : List Location :=
  t.entries.filterMap fun e =>
    match e.2 with
    | .file _ => some e.1
    | .directory => none

/-! ### Paths -/

/-- The location a list of components leads to from `here`.  Every component but the last has to lead to a directory;
what the last one leads to may be missing.  Names that are too long are refused. -/
def locateFrom (t : Tree) (limits : Option NameLimits) : Location → List String → Except Obstacle Location
  | here, [] => .ok here
  | here, name :: rest =>
      match t.find? here with
      | none => .error .missing
      | some (.file _) => .error .notDirectory
      | some .directory =>
          if name = ".." then locateFrom t limits here.dropLast rest
          else if limits.any (·.name < name.utf8ByteSize) then .error .nameTooLong
          else locateFrom t limits (here ++ [name]) rest

/-- The tree with directories made along a list of components from `here`, and what stopped that, if something did. -/
def makeDirectoriesFrom (t : Tree) (limits : Option NameLimits) : Location → List String → Tree × Option Obstacle
  | _, [] => (t, none)
  | here, name :: rest =>
      if name = ".." then makeDirectoriesFrom t limits here.dropLast rest
      else if limits.any (·.name < name.utf8ByteSize) then (t, some .nameTooLong)
      else
        let loc := here ++ [name]
        match t.find? loc with
        | some .directory => makeDirectoriesFrom t limits loc rest
        | some (.file _) => (t, some (if rest.isEmpty then .occupied else .notDirectory))
        | none => makeDirectoriesFrom (t.put loc .directory) limits loc rest

/-- Whether a path may be handed to the file system at all: it holds no NUL, and is not too long. -/
def checkPath (limits : Option NameLimits) (p : Path) : Option Obstacle :=
  if p.text.toList.contains '\x00' then some .nulInName
  else if limits.any (·.path < p.text.utf8ByteSize) then some .nameTooLong
  else none

def makeDirectories (t : Tree) (limits : Option NameLimits) (p : Path) : Tree × Option Obstacle :=
  match checkPath limits p with
  | some o => (t, some o)
  | none => t.makeDirectoriesFrom limits [] p.parts

/-- The location a path leads to. -/
def locate (t : Tree) (limits : Option NameLimits) (p : Path) : Except Obstacle Location :=
  match checkPath limits p with
  | some o => .error o
  | none => t.locateFrom limits [] p.parts

end Tree

end ScoreGate
