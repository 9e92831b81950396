import ScoreGate.Cache

/-!
# A storage in memory

A storage that needs no database: a list of entries, which can be made to fail.  Keys that are numbers are equal by
value as far as a database holds them, all others if they are written alike.

* `Value.sameKey`: which keys are equal.
* `Storage.memory`, `CacheDirectory.inMemory`: the storage, and a directory for it.
-/

namespace ScoreGate

namespace Value

/-- Numbers that are compared by value: floating-point numbers, and integers of 64 bits. -/
def storedNumber? : Value → Option Number
  | .number (.real x) => some (.real x)
  | .number (.int n) => if -9223372036854775808 ≤ n ∧ n < 9223372036854775808 then some (.int n) else none
  | _ => none

def sameKey (x y : Value) : Bool :=
  match x.storedNumber?, y.storedNumber? with
  | some a, some b => a.same b
  | none, none => x.alike y
  | _, _ => false

end Value

namespace Storage

structure Memory where
  entries : List (Value × CacheItem)
  /-- how many more accesses do not fail, unless none does -/
  left : Option Nat

namespace Memory

/-- What is kept under a key. -/
def find? (m : Memory) (key : Value) : Option CacheItem := (m.entries.find? fun e => e.1.sameKey key).map (·.2)

/-- Entries with one put in, in the place of one under the same key if there is one. -/
def putEntry (key : Value) (item : CacheItem) : List (Value × CacheItem) → List (Value × CacheItem)
  | [] => [(key, item)]
  | (k, i) :: es => if k.sameKey key then (k, item) :: es else (k, i) :: putEntry key item es

/-- An access with what it gives and leaves, unless it fails. -/
def access (m : Memory) (result : α) (entries : List (Value × CacheItem)) : Except DatabaseError α × Memory :=
  if m.left = some 0 then (.error ⟨"disk I/O error"⟩, m) else (.ok result, ⟨entries, m.left.map (· - 1)⟩)

end Memory

/-- A storage that goes on for so many accesses, or for ever. -/
def memory (lifetime : Option Nat) : Storage where
  State := Memory
  new := ⟨[], lifetime⟩
  same := Value.sameKey
  get key m := m.access (m.find? key) m.entries
  set key item m := m.access () (Memory.putEntry key item m.entries)
  clear m := m.access () []
  size m := if m.left = some 0 then 0 else m.entries.length

end Storage

/-- A new directory where there is nothing else. -/
def CacheDirectory.inMemory (lifetime : Option Nat) : CacheDirectory (.memory lifetime) .empty :=
  .temporary ["cache"] rfl

end ScoreGate
