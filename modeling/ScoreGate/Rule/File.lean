import ScoreGate.Rule.Line
import ScoreGate.Score

/-!
# Whole-file rules

Four rules look at a whole text: its size, its imports, and for component files the components it declares and the
hooks it calls.  Their issues all stand on line 1.

* `countComponents`: the declarations of components, found from left to right without overlap.
* `callsHook`: whether some main hook is called.
* `fileIssues`: the issues of a text.
-/

namespace ScoreGate

/-! ### Components -/

/-- What follows a fixed word and at least one blank. -/
def afterWord? (word : String) (cs : List Char) : Option (List Char) :=
  if word.toList.isPrefixOf cs then
    let rest := cs.drop word.length
    if (rest.takeWhile isBlank).isEmpty then none else some (rest.dropWhile isBlank)
  else none

def afterName? (cs : List Char) : Option (List Char) :=
  if (cs.takeWhile isWordChar).isEmpty then none else some (cs.dropWhile isWordChar)

/-- What follows a character that may have blanks before it. -/
def afterMark? (mark : Char) (cs : List Char) : Option (List Char) :=
  match cs.dropWhile isBlank with
  | c :: rest => if c = mark then some rest else none
  | [] => none

/-- What follows the declaration of a component at the start of a text: a named function, or a constant that begins
with a parenthesis. -/
def afterComponent? (cs : List Char) : Option (List Char) :=
  match (afterWord? "function" cs).bind afterName? with
  | some rest => some rest
  | none => ((afterWord? "const" cs).bind afterName?).bind fun rest => (afterMark? '=' rest).bind (afterMark? '(')

/-- The number of declarations of components, after some characters that belong to an earlier one. -/
def countComponentsFrom : Nat → List Char → Nat
  | _, [] => 0
  | skip + 1, _ :: cs => countComponentsFrom skip cs
  | 0, c :: cs =>
      match afterComponent? (c :: cs) with
      | some rest => countComponentsFrom (cs.length - rest.length) cs + 1
      | none => countComponentsFrom 0 cs

def countComponents (cs : List Char) : Nat := countComponentsFrom 0 cs

/-! ### Hooks -/

def mainHooks : List String := [
  "useState", "useEffect", "useReducer", "useCallback", "useMemo", "useContext", "useRef", "useImperativeHandle",
  "useLayoutEffect", "useDebugValue"]

def startsWithHookCall (cs : List Char) : Bool :=
  mainHooks.any fun hook =>
    hook.toList.isPrefixOf cs && (afterMark? '(' (cs.drop hook.length)).isSome

/-- Whether a main hook is called in a text that follows a word character or does not. -/
def callsHookFrom : Bool → List Char → Bool
  | _, [] => false
  | afterWordChar, c :: cs => (!afterWordChar && startsWithHookCall (c :: cs)) || callsHookFrom (isWordChar c) cs

def callsHook (cs : List Char) : Bool := callsHookFrom false cs

/-- A letter of any case, as its small ASCII letter; the sign for kelvin is a `k`. -/
def foldCase (c : Char) : Char := if c = '\u212a' then 'k' else c.toLower

def isHookFile (path : String) : Bool := occursIn "hook".toList (path.toList.map foldCase)

/-! ### The rules -/

def Issue.onFile (message suggestion : String) (severity : Severity) (kind : IssueKind) : Issue :=
  .onLine ⟨1, Nat.one_pos⟩ message suggestion severity kind

/-- More imports than these are reported. -/
def maxImports : Nat := 20

/-- Files above this size are reported. -/
def largeFileLines : Nat := 500

/-- More components than these are reported. -/
def maxComponents : Nat := 3

/-- The number of lines that begin with an import. -/
def countImports (ls : List (List Char)) : Nat :=
  ls.countP ("import".toList.isPrefixOf ·)

def largeFileIssues (lineCount : Nat) : List Issue :=
  if largeFileLines < lineCount then
    [.onFile "Large file"
      ("File has " ++ toString lineCount ++ " lines. Consider splitting into smaller components/modules")
      .medium .warning]
  else []

def importIssues (importCount : Nat) : List Issue :=
  if maxImports < importCount then
    [.onFile "Many imports"
      ("File has " ++ toString importCount ++ " imports. Consider organizing imports or splitting the file")
      .low .info]
  else []

def componentIssues (componentCount : Nat) : List Issue :=
  if maxComponents < componentCount then
    [.onFile "Multiple components"
      ("File contains " ++ toString componentCount ++ " components. Consider splitting into separate files")
      .medium .warning]
  else []

def hookIssues (called : Bool) : List Issue :=
  if called then
    [.onFile
      ("Main React hooks (useState, useEffect, ...) are used directly in a " ++
        "component file. Move hook logic and state to a separate .hook file.")
      ("Move hook logic to a .hook file (e.g., my-feature.hook.ts) for better " ++
        "separation of concerns and testability.")
      .high .error]
  else []

/-- The issues of a whole text. -/
def fileIssues (path : String) (cs : List Char) : List Issue :=
  largeFileIssues (lines cs).length ++ importIssues (countImports (lines cs)) ++
    (if isComponentFile path then
      componentIssues (countComponents cs) ++ hookIssues (!isHookFile path && callsHook cs)
    else [])

end ScoreGate
