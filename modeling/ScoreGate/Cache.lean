import ScoreGate.Analysis
import ScoreGate.Tree

/-!
# Caches

A cache keeps results under keys and counts the lookups that found something and those that did not.  It can be
switched off, and it can be closed, after which it keeps nothing; then it only counts.  The results are in a storage, a
database in a directory, of which nothing is said here but what can be asked of it: any access may fail, and then a
lookup misses and a result is not kept, while clearing fails.

* `Storage`: what a cache asks of its storage.
* `CacheDirectory`, `Cache.onDirectory`, `Cache.disabled`: a new cache, and its directory.
* `Cache.lookup`, `Cache.insert`, `Cache.clear`, `Cache.close`: the operations.
* `Cache.memoised`: a computation whose result is kept.
* `Cache.analyzeText`: the analysis of a text with its score from the cache.
-/

namespace ScoreGate

/-- What a cache keeps: a value, or a score. -/
inductive CacheItem where
  | value (v : Value)
  | score (s : Score)

/-- Why an access to a storage failed. -/
structure DatabaseError where
  message : String

/-- A storage of results under keys.  An access may change the storage whether or not it fails. -/
structure Storage where
  State : Type
  /-- the storage in a directory where there was none -/
  new : State
  /-- whether two keys are equal -/
  same : Value → Value → Bool
  get : Value → State → Except DatabaseError (Option CacheItem) × State
  set : Value → CacheItem → State → Except DatabaseError Unit × State
  clear : State → Except DatabaseError Unit × State
  size : State → Nat

/-! ### Directories -/

namespace Tree

/-- Whether nothing is at a location or below it. -/
def isFree (t : Tree) (loc : Location) : Bool := loc ≠ [] && t.entries.all fun e => !loc.isPrefixOf e.1

end Tree

/-- Where a cache keeps its results: in a new temporary directory, of which no more is known than that nothing was
there, or in a directory that is handed in, with the storage that is in it; it may be missing, but it is no file. -/
inductive CacheDirectory (S : Storage) (t : Tree) where
  | temporary (location : Location) (free : t.isFree location = true)
  | given (location : Location) (state : S.State)
      (usable : t.find? location = none ∨ t.find? location = some .directory)

namespace CacheDirectory

variable {S : Storage} {t : Tree}

def location : CacheDirectory S t → Location
  | .temporary location _ => location
  | .given location .. => location

def state : CacheDirectory S t → S.State
  | .temporary .. => S.new
  | .given _ state _ => state

def isTemporary : CacheDirectory S t → Bool
  | .temporary .. => true
  | .given .. => false

/-- The tree with the directory, which is made if it is not there. -/
def place : CacheDirectory S t → Tree
  | .temporary location _ => t.put location .directory
  | .given location .. => if t.isDirectory location then t else t.put location .directory

end CacheDirectory

/-! ### Caches -/

structure Cache (S : Storage) where
  enabled : Bool
  hits : Nat
  misses : Nat
  /-- whether the directory goes away with the cache -/
  ownsDirectory : Bool
  /-- the directory of an open cache and the storage in it -/
  storage : Option (Location × S.State)

namespace Cache

variable {S : Storage}

/-- A new cache that keeps its results in a directory. -/
def onDirectory {t : Tree} (d : CacheDirectory S t) : Cache S := ⟨true, 0, 0, d.isTemporary, some (d.location, d.state)⟩

/-- A cache that is switched off. -/
def disabled : Cache S := ⟨false, 0, 0, false, none⟩

/-- The directory and the storage, if the cache is in use. -/
def opened? (c : Cache S) : Option (Location × S.State) := if c.enabled then c.storage else none

/-- Looks a key up and counts the lookup; where the storage fails there is nothing. -/
def lookup (c : Cache S) (key : Value) : Option CacheItem × Cache S :=
  match c.opened? with
  | none => (none, { c with misses := c.misses + 1 })
  | some (directory, state) =>
      match S.get key state with
      | (.ok (some item), state) => (some item, { c with hits := c.hits + 1, storage := some (directory, state) })
      | (_, state) => (none, { c with misses := c.misses + 1, storage := some (directory, state) })

/-- Keeps a result under a key, if the cache is in use and its storage does not fail. -/
def insert (c : Cache S) (key : Value) (item : CacheItem) : Cache S :=
  match c.opened? with
  | none => c
  | some (directory, state) => { c with storage := some (directory, (S.set key item state).2) }

/-- Starts counting anew and forgets everything, in this order. -/
def clear (c : Cache S) : Except Failure Unit × Cache S :=
  let c := { c with hits := 0, misses := 0 }
  match c.opened? with
  | none => (.ok (), c)
  | some (directory, state) =>
      let (done, state) := S.clear state
      (done.mapError fun _ => .backend, { c with storage := some (directory, state) })

/-- How many results are kept. -/
def size (c : Cache S) : Nat :=
  match c.storage with
  | none => 0
  | some (_, state) => S.size state

/-- Gives the storage up; a directory of the cache's own is removed with all that is in it. -/
def close (c : Cache S) (t : Tree) : Cache S × Tree :=
  match c.storage with
  | none => ({ c with enabled := false }, t)
  | some (directory, _) =>
      ({ c with enabled := false, storage := none }, if c.ownsDirectory then t.eraseBelow directory else t)

/-- The kept result under a key, or else that of a computation, which is then kept.  The computation may use the cache
itself, and where it fails nothing is kept. -/
def memoised [Monad m] [MonadStateOf (Cache S) m] (key : Value) (compute : m CacheItem) : m CacheItem := do
  let (found, c) := (← getThe (Cache S)).lookup key
  set c
  match found with
  | some item => return item
  | none =>
      let item ← compute
      modifyThe (Cache S) fun c => c.insert key item
      return item

/-! ### Scores -/

def scoreKey (n : IssueCounts) (size : Nat) : Value :=
  .list [.text "score", .int n.high, .int n.medium, .int n.low, .int size]

def scoreItem (n : IssueCounts) (size : Nat) : CacheItem := .score (.ofCounts n (sizeBonus (.int size)))

/-- The analysis of a text whose score comes from somewhere; something else in its place is a fault. -/
def analyzeTextBy [Monad m] [MonadExceptOf Failure m] (score : IssueCounts → Nat → m CacheItem)
    (content path : String) : m FileAnalysis := do
  let issues := textIssues path content.toList
  let counts := IssueCounts.of issues
  let size := (lines content.toList).length
  match ← score counts size with
  | .score s => return ⟨path, issues, counts, s, size⟩
  | .value _ => throw (.fault .noMember)

/-- The analysis of a text whose score is taken from the cache or kept there. -/
def analyzeText [Monad m] [MonadExceptOf Failure m] [MonadStateOf (Cache S) m] (content path : String) :
    m FileAnalysis :=
  analyzeTextBy (fun n size => memoised (S := S) (scoreKey n size) (pure (scoreItem n size))) content path

end Cache

end ScoreGate
