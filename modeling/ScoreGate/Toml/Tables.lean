import ScoreGate.Toml.Scalar

/-!
# Tables of a TOML document

The tables that a document has built so far, and what may still be done with them.  A table that was opened under its
own heading may not be opened again; a list or table written as a value is closed for good, with everything below it.
-/

namespace ScoreGate.Toml

/-- A dotted key: the names from the outermost in. -/
abbrev Key := List String

abbrev Entries := List (String × Value)

/-! ### Going down -/

/-- The entries with the table under a key changed, where every table on the way that is missing is made.  A list on
the way stands for its last item, if lists may be entered. -/
def changeTable (enterLists : Bool) (f : Entries → Except Fault Entries) : Key → Entries → Except Fault Entries
  | [], es => f es
  | k :: ks, es =>
      match Value.lookup k es with
      | none => do
          let inner ← changeTable enterLists f ks []
          return es ++ [(k, .table inner)]
      | some (.table inner) => do
          let inner ← changeTable enterLists f ks inner
          return Value.setEntry k (.table inner) es
      | some (.list items) =>
          if !enterLists then .error malformed
          else
            match items.getLast? with
            | some (.table inner) => do
                let inner ← changeTable enterLists f ks inner
                return Value.setEntry k (.list (items.dropLast ++ [.table inner])) es
            | _ => .error malformed
      | some _ => .error malformed

/-- Adds an entry that must not be there yet. -/
def addEntry (name : String) (v : Value) (es : Entries) : Except Fault Entries :=
  match Value.lookup name es with
  | some _ => .error malformed
  | none => .ok (es ++ [(name, v)])

/-- Adds an empty table at the end of a list, which is made if it is missing. -/
def addListed (name : String) (es : Entries) : Except Fault Entries :=
  match Value.lookup name es with
  | some (.list items) => .ok (Value.setEntry name (.list (items ++ [.table []])) es)
  | some _ => .error malformed
  | none => .ok (es ++ [(name, .list [.table []])])

def isContainer : Value → Bool
  | .list _ | .table _ => true
  | _ => false

/-! ### What may be done -/

/-- A document so far: its entries, the key of the table that is open, and which keys are closed for what. -/
structure Draft where
  entries : Entries
  header : Key
  /-- keys closed with everything below them -/
  closed : List Key
  /-- keys that no heading may open again -/
  opened : List Key
  /-- keys that join the opened ones at the next heading -/
  pending : List Key

namespace Draft

def start : Draft := ⟨[], [], [], [], []⟩

/-- Whether a key lies at or below a closed one. -/
def isClosed (d : Draft) (key : Key) : Bool := d.closed.any fun k => k.isPrefixOf key

def isOpened (d : Draft) (key : Key) : Bool := d.opened.contains key

/-- What happens before any heading. -/
def settle (d : Draft) : Draft := { d with opened := d.opened ++ d.pending, pending := [] }

def openTable (d : Draft) (key : Key) : Except Fault Draft := do
  if d.isOpened key || d.isClosed key then throw malformed
  let entries ← changeTable true .ok key d.entries
  return { d with entries, header := key, opened := d.opened ++ [key] }

/-- Opens a new item of a list of tables; what was known of the keys below is forgotten. -/
def openItem (d : Draft) (key : Key) : Except Fault Draft := do
  if d.isClosed key then throw malformed
  let keep (k : Key) : Bool := !key.isPrefixOf k
  let entries ← changeTable true (addListed (key.getLastD "")) key.dropLast d.entries
  return { d with
    entries, header := key
    closed := d.closed.filter keep
    opened := d.opened.filter keep ++ [key] }

/-- The keys strictly between the open table and a dotted key. -/
def between (d : Draft) (key : Key) : List Key :=
  (List.range (key.length - 1)).map fun i => d.header ++ key.take (i + 1)

/-- Adds an entry to the open table. -/
def add (d : Draft) (key : Key) (v : Value) : Except Fault Draft := do
  if (d.between key).any d.isOpened then throw malformed
  if d.isClosed (d.header ++ key.dropLast) then throw malformed
  let entries ← changeTable true (addEntry (key.getLastD "") v) (d.header ++ key.dropLast) d.entries
  return { d with
    entries
    pending := d.pending ++ d.between key
    closed := if isContainer v then d.closed ++ [d.header ++ key] else d.closed }

end Draft

end ScoreGate.Toml
