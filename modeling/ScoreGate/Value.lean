import ScoreGate.Moment
import ScoreGate.Number
import ScoreGate.Number.Reading

/-!
# Values of documents and settings

A value is what a stored document or a settings file holds: nothing, a number, a text, a list, a table or a moment.
Records keep some values as they were read, so the operations here are total: what a value of the wrong kind does is
a `Fault`, not a gap.

* `Value.literal`, `Value.display`: the forms in messages; `Value.isWritable`: whether a value has them.
* `Value.toInt`, `Value.toReal`, `Value.toNumber`: the readings as numbers.
* `Value.field`, `Value.member?`: the two ways to ask for an entry of a table.
* `Value.alike`, `Value.sameName`: equality of values, and of names.
-/

namespace ScoreGate

inductive Value where
  | null
  | number (n : Number)
  | text (s : String)
  | list (items : List Value)
  | table (entries : List (String × Value))
  | moment (m : Moment)
  deriving Repr

namespace Value

instance : Inhabited Value := ⟨.null⟩

abbrev flag (b : Bool) : Value := .number (.flag b)

abbrev int (n : Int) : Value := .number (.int n)

abbrev real (x : Binary64) : Value := .number (.real x)

/-- Whether a value counts as true: nothing, zero and whatever is empty do not. -/
def isTrue : Value → Bool
  | .null => false
  | .number n => n.isTrue
  | .text s => !s.isEmpty
  | .list items => !items.isEmpty
  | .table entries => !entries.isEmpty
  | .moment _ => true

def kindName : Value → String
  | .null => "NoneType"
  | .number (.flag _) => "bool"
  | .number (.int _) => "int"
  | .number (.real _) => "float"
  | .text _ => "str"
  | .list _ => "list"
  | .table _ => "dict"
  | .moment m => m.kindName

/-! ### Forms in messages -/

mutual

/-- The exact form, with texts in quotes. -/
def literal : Value → String
  | .null => "None"
  | .number n => n.text
  | .text s => quoted s
  | .list items => "[" ++ joinText ", " (literalItems items) ++ "]"
  | .table entries => "\x7b" ++ joinText ", " (literalEntries entries) ++ "\x7d"
  | .moment m => m.literal

def literalItems : List Value → List String
  | [] => []
  | v :: vs => literal v :: literalItems vs

def literalEntries : List (String × Value) → List String
  | [] => []
  | (k, v) :: es => (quoted k ++ ": " ++ literal v) :: literalEntries es

end

/-- The form of a value that stands alone: texts without quotes. -/
def display : Value → String
  | .text s => s
  | .moment m => m.text
  | v => v.literal

mutual

/-- Whether a value has a written form: no integer in it is too long. -/
def isWritable : Value → Bool
  | .number n => n.isWritable
  | .list items => areWritable items
  | .table entries => entriesWritable entries
  | _ => true

def areWritable : List Value → Bool
  | [] => true
  | v :: vs => isWritable v && areWritable vs

def entriesWritable : List (String × Value) → Bool
  | [] => true
  | (_, v) :: es => isWritable v && entriesWritable es

end

/-- The value, if it has a written form. -/
def checkWritable (v : Value) : Except Fault Unit :=
  if v.isWritable then .ok () else .error (.badValue .hugeInteger)

/-- The form of a value that stands alone, if it has one. -/
def displayed (v : Value) : Except Fault String := do
  v.checkWritable
  return v.display

/-! ### Readings -/

/-- A number as it is; no other kind of value is one. -/
def toNumber : Value → Except Fault Number
  | .number n => .ok n
  | _ => .error .wrongKind

/-- The integer that a value stands for: fractions are dropped and texts are read. -/
def toInt : Value → Except Fault Int
  | .number (.flag b) => .ok (if b then 1 else 0)
  | .number (.int n) => .ok n
  | .number (.real x) =>
      match x with
      | .nan => .error (.badValue .undefinedInteger)
      | .infinity _ => .error .outOfRange
      | .finite negative m e _ =>
          let q := Binary64.finiteValue negative m e
          .ok (Int.tdiv q.num q.den)
  | .text s => (readInt s).mapError .badValue
  | _ => .error .wrongKind

/-- The floating-point number that a value stands for; texts are read. -/
def toReal : Value → Except Fault Binary64
  | .number n => n.toReal
  | .text s => (readReal s).mapError .badValue
  | _ => .error .wrongKind

/-- The values met when a value is gone through one by one: items, keys or characters. -/
def elements : Value → Except Fault (List Value)
  | .list items => .ok items
  | .table entries => .ok (entries.map fun e => .text e.1)
  | .text s => .ok (s.toList.map fun c => .text (String.singleton c))
  | _ => .error .wrongKind

/-! ### Tables -/

def lookup (key : String) : List (String × Value) → Option Value
  | [] => none
  | (k, v) :: es => if k = key then some v else lookup key es

/-- The entries with one set: in its old place if the name is there, else at the end. -/
def setEntry (key : String) (v : Value) : List (String × Value) → List (String × Value)
  | [] => [(key, v)]
  | (k, w) :: es => if k = key then (k, v) :: es else (k, w) :: setEntry key v es

@[simp] theorem lookup_setEntry_self (key : String) (v : Value) (es : List (String × Value)) :
    lookup key (setEntry key v es) = some v := by
  induction es with
  | nil => simp [setEntry, lookup]
  | cons e es ih => by_cases h : e.1 = key <;> simp [setEntry, lookup, h, ih]

theorem lookup_setEntry_of_ne {key other : String} (h : other ≠ key) (v : Value) (es : List (String × Value)) :
    lookup other (setEntry key v es) = lookup other es := by
  induction es with
  | nil => simp [setEntry, lookup, Ne.symm h]
  | cons e es ih =>
      by_cases he : e.1 = key
      · simp [setEntry, lookup, he, Ne.symm h]
      · simp [setEntry, lookup, he, ih]

def field (v : Value) (key : String) : Except Fault Value :=
  match v with
  | .table entries =>
      match lookup key entries with
      | some x => .ok x
      | none => .error (.missingKey key)
  | _ => .error .wrongKind

/-- An entry that may be missing. -/
def member? (v : Value) (key : String) : Except Fault (Option Value) :=
  match v with
  | .table entries => .ok (lookup key entries)
  | _ => .error .noMember

/-- An entry, or a value in its place. -/
def memberOr (v : Value) (key : String) (default : Value) : Except Fault Value :=
  (v.member? key).map (·.getD default)

/-- Refuses entries of names that a record does not have. -/
def onlyNames (names : List String) (entries : List (String × Value)) : Except Fault Unit :=
  if entries.all fun e => names.contains e.1 then .ok () else .error .wrongKind

/-! ### Equality -/

mutual

/-- Whether two values are written alike: numbers of different kinds are not. -/
def alike : Value → Value → Bool
  | .null, .null => true
  | .number x, .number y => x = y
  | .text s, .text t => s = t
  | .list xs, .list ys => alikeItems xs ys
  | .table xs, .table ys => alikeEntries xs ys
  | .moment m, .moment n => m = n
  | _, _ => false

def alikeItems : List Value → List Value → Bool
  | [], [] => true
  | x :: xs, y :: ys => alike x y && alikeItems xs ys
  | _, _ => false

def alikeEntries : List (String × Value) → List (String × Value) → Bool
  | [], [] => true
  | (k, x) :: xs, (l, y) :: ys => k = l && alike x y && alikeEntries xs ys
  | _, _ => false

end

/-! ### Names -/

/-- Whether a value can stand for a name in a set of names. -/
def isName : Value → Bool
  | .list _ | .table _ => false
  | _ => true

/-- Equality of names: numbers by exact value, texts by their characters. -/
def sameName : Value → Value → Bool
  | .null, .null => true
  | .number (.real .nan), .number (.real .nan) => true
  | .number x, .number y => x.same y
  | .text s, .text t => s == t
  | .moment m, .moment n => m == n
  | _, _ => false

end Value

end ScoreGate
