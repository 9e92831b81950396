import ScoreGate.Fault
import ScoreGate.Value

/-!
# Command lines

A command line is a list of arguments: options, which begin with a dash, and words.  A long option stands after two
dashes and may have its value behind an equals sign; letters stand together after one dash, and what follows a letter
that takes a value is that value.  Any other value is the next argument, whatever it looks like.  After two dashes alone
everything is a word.

* `OptionForm`: an option that a command takes.
* `readArguments`: the options and words of a command line.
* `Arguments.value`: the value of an option.
-/

namespace ScoreGate

/-! ### Options -/

/-- What stands behind an option. -/
inductive OptionKind where
  /-- nothing -/
  | switch
  | text
  /-- a text; the option may be given several times -/
  | texts
  | path
  | integer (least : Int)
  | real
  deriving DecidableEq, Repr

structure OptionForm where
  name : String
  letter : Option Char
  kind : OptionKind
  deriving DecidableEq, Repr

def OptionForm.takesValue (f : OptionForm) : Bool := f.kind ≠ .switch

/-- What is wrong with a command line. -/
inductive UsageFault where
  | unknownOption (option : String)
  | missingValue (option : String)
  | unexpectedValue (option : String)
  | badValue (option : String)
  | unknownCommand (word : String)
  | missingCommand
  | missingWord (name : String)
  | unexpectedWord (word : String)
  deriving DecidableEq, Repr

def UsageFault.message : UsageFault → String
  | .unknownOption option => "No such option: " ++ option
  | .missingValue option => "Option '" ++ option ++ "' requires an argument."
  | .unexpectedValue option => "Option '" ++ option ++ "' does not take a value."
  | .badValue option => "Invalid value for '" ++ option ++ "'."
  | .unknownCommand word => "No such command '" ++ word ++ "'."
  | .missingCommand => "Missing command."
  | .missingWord name => "Missing argument '" ++ name ++ "'."
  | .unexpectedWord word => "Got unexpected extra argument (" ++ word ++ ")"

/-! ### Taking a line apart -/

/-- A line taken apart so far. -/
structure Parts where
  /-- the options with the texts behind them, which are empty for switches -/
  options : List (OptionForm × String)
  words : List String
  /-- the option whose value is to come -/
  awaited : Option OptionForm
  /-- whether all further arguments are words -/
  closed : Bool

namespace Parts

def start : Parts := ⟨[], [], none, false⟩

def addOption (p : Parts) (f : OptionForm) (s : String) : Parts := { p with options := p.options ++ [(f, s)] }

def addWord (p : Parts) (s : String) : Parts := { p with words := p.words ++ [s] }

/-- A long option, with what follows its equals sign. -/
def long (forms : List OptionForm) (p : Parts) (name : String) (value : Option String) : Except UsageFault Parts :=
  match forms.find? fun f => f.name = name with
  | none => .error (.unknownOption ("--" ++ name))
  | some f =>
      match f.takesValue, value with
      | true, some s => .ok (p.addOption f s)
      | true, none => .ok { p with awaited := some f }
      | false, none => .ok (p.addOption f "")
      | false, some _ => .error (.unexpectedValue ("--" ++ name))

/-- Letters after one dash. -/
def letters (forms : List OptionForm) (p : Parts) : List Char → Except UsageFault Parts
  | [] => .ok p
  | c :: cs =>
      match forms.find? fun f => f.letter = some c with
      | none => .error (.unknownOption (String.ofList ['-', c]))
      | some f =>
          if !f.takesValue then letters forms (p.addOption f "") cs
          else if cs.isEmpty then .ok { p with awaited := some f }
          else .ok (p.addOption f (String.ofList cs))

/-- One more argument.  Unless words may stand between options, the first word closes the line. -/
def next (forms : List OptionForm) (wordsBetween : Bool) (p : Parts) (argument : String) : Except UsageFault Parts :=
  match p.awaited with
  | some f => .ok { p.addOption f argument with awaited := none }
  | none =>
      if p.closed then .ok (p.addWord argument)
      else
        match argument.toList with
        | ['-', '-'] => .ok { p with closed := true }
        | '-' :: '-' :: cs =>
            p.long forms (String.ofList (cs.takeWhile (· ≠ '=')))
              (if cs.contains '=' then some (String.ofList ((cs.dropWhile (· ≠ '=')).drop 1)) else none)
        | '-' :: c :: cs => p.letters forms (c :: cs)
        | _ => .ok { p.addWord argument with closed := !wordsBetween }

def ofLine (forms : List OptionForm) (wordsBetween : Bool) (line : List String) : Except UsageFault Parts := do
  let p ← line.foldlM (next forms wordsBetween) start
  match p.awaited with
  | some f => throw (.missingValue ("--" ++ f.name))
  | none => return p

end Parts

/-! ### Values -/

/-- The value that the texts behind an option stand for, of which there is at least one; the last one counts. -/
def OptionKind.read (k : OptionKind) (texts : List String) : Option Value :=
  let last := texts.getLastD ""
  match k with
  | .switch => some (.flag true)
  | .text | .path => some (.text last)
  | .texts => some (.list (texts.map .text))
  | .integer least =>
      match readInt last with
      | .ok n => if n < least then none else some (.int n)
      | .error _ => none
  | .real =>
      match readReal last with
      | .ok x => some (.real x)
      | .error _ => none

/-- The options of a line with their values, and its words. -/
structure Arguments where
  options : List (String × Value)
  words : List String
  deriving Repr

namespace Arguments

def value (a : Arguments) (name : String) : Value := (Value.lookup name a.options).getD .null

def isGiven (a : Arguments) (name : String) : Bool := (Value.lookup name a.options).isSome

def text? (a : Arguments) (name : String) : Option String :=
  match a.value name with
  | .text s => some s
  | _ => none

end Arguments

/-- Why a line does not come to a command's turn. -/
inductive LineFault where
  | usage (fault : UsageFault)
  /-- a path that no file can have -/
  | nulInPath
  deriving DecidableEq, Repr

/-- A path has to be one that a file can have. -/
def checkWord (s : String) : Except LineFault Unit :=
  if s.toList.contains '\x00' then .error .nulInPath else .ok ()

def readOption (p : Parts) (f : OptionForm) : Except LineFault (String × Value) := do
  let texts := (p.options.filter fun o => o.1.name = f.name).map (·.2)
  if f.kind = .path then checkWord (texts.getLastD "")
  match f.kind.read texts with
  | some v => return (f.name, v)
  | none => throw (.usage (.badValue ("--" ++ f.name)))

/-- The options of a line, each once, in the order in which they were first given. -/
def distinctForms : List OptionForm → List OptionForm
  | [] => []
  | f :: fs => f :: (distinctForms fs).filter (·.name ≠ f.name)

/-- The options and words of a command line; the words are paths. -/
def readArguments (forms : List OptionForm) (line : List String) : Except LineFault Arguments := do
  let p ← (Parts.ofLine forms true line).mapError LineFault.usage
  let options ← (distinctForms (p.options.map (·.1))).mapM (readOption p)
  return ⟨options, p.words⟩

end ScoreGate
