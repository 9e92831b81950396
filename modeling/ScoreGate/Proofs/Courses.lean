import Mathlib
import ScoreGate.Cache

/-!
# What happens to a cache

What is known of a storage is what it is documented to recall: under a key it gives the item that was last set under an
equal key since it was cleared.  A client of a cache looks keys up, puts items in, calls memoised functions, analyses
texts, clears and closes the cache, and goes on as the answers tell it; the functions that it calls are clients
themselves.  Whatever it does leaves events.

* `Storage.Recalls`: what a storage is documented to do.
* `Cache.Client`, `Cache.Client.run`: what is done with a cache, and what comes of it.
* `Cache.Course`: a cache, its directory and what has happened to it.
* `Cache.run_memoCall`, `Cache.run_analyze`: memoised calls and analyses as single steps.
-/

namespace ScoreGate

/-! ### Storages -/

namespace Storage

inductive Access where
  | get (key : Value)
  | set (key : Value) (item : CacheItem)
  | clear

/-- Whether an access is carried out, and the storage after it. -/
def access (S : Storage) (state : S.State) : Access → Bool × S.State
  | .get key => ((S.get key state).1.isOk, (S.get key state).2)
  | .set key item => ((S.set key item state).1.isOk, (S.set key item state).2)
  | .clear => ((S.clear state).1.isOk, (S.clear state).2)

/-- A storage after some accesses, the latest first. -/
def after (S : Storage) : List Access → S.State
  | [] => S.new
  | a :: as => (S.access (S.after as) a).2

/-- An access fails after some others. -/
def Fails (S : Storage) (a : Access) (as : List Access) : Prop := (S.access (S.after as) a).1 = false

/-- What a storage may give for a key: what was last set under an equal key since it was cleared.  An access that failed
may have been carried out or not. -/
def MayGive (S : Storage) (key : Value) : List Access → Option CacheItem → Prop
  | [], found => found = none
  | .get _ :: as, found => S.MayGive key as found
  | .set k item :: as, found =>
      if S.same k key then found = some item ∨ S.Fails (.set k item) as ∧ S.MayGive key as found
      else S.MayGive key as found
  | .clear :: as, found => found = none ∨ S.Fails .clear as ∧ S.MayGive key as found

/-- A lookup that does not fail gives what was last set under an equal key since the storage was cleared, or nothing. -/
def Recalls (S : Storage) : Prop :=
  ∀ key as found state, S.get key (S.after as) = (.ok found, state) → S.MayGive key as found

end Storage

namespace Cache

variable {S : Storage}

/-! ### Courses -/

/-- What happens to a cache. -/
inductive Event where
  | got (key : Value) (found : Option CacheItem)
  | called (key : Value)
  /-- a memoised function is run -/
  | began (key : Value)
  /-- by hand, or as what a memoised function gives -/
  | put (key : Value) (item : CacheItem)
  | answered (key : Value) (item : CacheItem)
  | analysed (content path : String) (answer : Except Failure FileAnalysis)
  | cleared
  /-- by hand, or on leaving the block that the cache is for -/
  | closed

/-- A cache, the tree in which its directory is, and what has happened, the latest first. -/
structure Course (S : Storage) where
  cache : Cache S
  tree : Tree
  events : List Event

namespace Course

/-- A course at its start, on a directory or with a cache that is switched off. -/
def start (S : Storage) (t : Tree) : Option (CacheDirectory S t) → Course S
  | none => ⟨disabled, t, []⟩
  | some d => ⟨onDirectory d, d.place, []⟩

def record (s : Course S) (e : Event) : Course S := { s with events := e :: s.events }

def look (s : Course S) (key : Value) : Course S := { s with cache := (s.cache.lookup key).2 }

def keep (s : Course S) (key : Value) (item : CacheItem) : Course S :=
  ⟨s.cache.insert key item, s.tree, .put key item :: s.events⟩

def clear (s : Course S) : Course S := ⟨s.cache.clear.2, s.tree, .cleared :: s.events⟩

def close (s : Course S) : Course S := ⟨(s.cache.close s.tree).1, (s.cache.close s.tree).2, .closed :: s.events⟩

end Course

/-! ### Clients -/

/-- What is done with a cache, and how it goes on. -/
inductive Client where
  /-- nothing more; with it what a memoised function gives or how it fails -/
  | done (result : Except Failure CacheItem)
  | get (key : Value) (next : Option CacheItem → Client)
  | set (key : Value) (item : CacheItem) (next : Client)
  | call (key : Value) (function : Client) (next : Except Failure CacheItem → Client)
  | analyze (content path : String) (next : Except Failure FileAnalysis → Client)
  | clear (next : Except Failure Unit → Client)
  | close (next : Client)

/-- What the functions that a client calls are written in. -/
abbrev Session (S : Storage) := ExceptT Failure (StateM (Course S))

instance : MonadStateOf (Cache S) (StateM (Course S)) where
  get s := (s.cache, s)
  set c s := ((), { s with cache := c })
  modifyGet f s := ((f s.cache).1, { s with cache := (f s.cache).2 })

/-- What happens is recorded. -/
def note (e : Event) : Session S Unit := modifyThe (Course S) fun s => s.record e

def memoCall (key : Value) (compute : Session S CacheItem) : Session S CacheItem := do
  note (.called key)
  let item ← memoised (S := S) key do
    note (.began key)
    let item ← compute
    note (.put key item)
    return item
  note (.answered key item)
  return item

/-- The score for some counts and a size by a memoised call. -/
def scoreCall (n : IssueCounts) (size : Nat) : Session S CacheItem := memoCall (scoreKey n size) (pure (scoreItem n size))

/-- What a client gives in the end, and the course after it. -/
def Client.run : Client → Course S → Except Failure CacheItem × Course S
  | .done result, s => (result, s)
  | .get key next, s => (next (s.cache.lookup key).1).run ((s.look key).record (.got key (s.cache.lookup key).1))
  | .set key item next, s => next.run (s.keep key item)
  | .call key function next, s =>
      let (result, s) := (memoCall key fun s => function.run s).run.run s
      (next result).run s
  | .analyze content path next, s =>
      let (answer, s) := (analyzeTextBy scoreCall content path).run.run s
      (next answer).run (s.record (.analysed content path answer))
  | .clear next, s => (next s.cache.clear.1).run s.clear
  | .close next, s => next.run s.close

/-! ### Calls and analyses -/

theorem run_bind {α β : Type} (x : Session S α) (f : α → Session S β) (s : Course S) :
    (x >>= f).run.run s = match x.run.run s with
      | (.ok a, s) => (f a).run.run s
      | (.error e, s) => (.error e, s) := by
  have hbind : (x >>= f).run.run s = match x.run.run s with | (r, s) => (ExceptT.bindCont f r).run s := rfl
  rw [hbind]
  rcases x.run.run s with ⟨_ | a, t⟩
  · rfl
  · rfl

theorem run_memoised (key : Value) (compute : Session S CacheItem) (s : Course S) :
    (memoised (S := S) key compute).run.run s =
      match (s.cache.lookup key).1 with
      | some item => (.ok item, s.look key)
      | none =>
          match compute.run.run (s.look key) with
          | (.ok item, s) => (.ok item, { s with cache := s.cache.insert key item })
          | (.error e, s) => (.error e, s) := by
  have hstart : (memoised (S := S) key compute).run.run s =
      ((match (s.cache.lookup key).1 with
        | some item => pure item
        | none => do
            let item ← compute
            modifyThe (Cache S) fun c => c.insert key item
            return item : Session S CacheItem)).run.run (s.look key) := rfl
  rw [hstart]
  cases (s.cache.lookup key).1 with
  | some item => rfl
  | none =>
    simp only [run_bind]
    rcases hc : compute.run.run (s.look key) with ⟨_ | item, t⟩
    · rfl
    · rfl

/-- A memoised call gives what is kept, or what its function gives, which is then kept. -/
theorem run_memoCall (key : Value) (compute : Session S CacheItem) (s : Course S) :
    (memoCall key compute).run.run s =
      match (s.cache.lookup key).1 with
      | some item => (.ok item, ((s.record (.called key)).look key).record (.answered key item))
      | none =>
          match compute.run.run (((s.record (.called key)).look key).record (.began key)) with
          | (.ok item, s) => (.ok item, (s.keep key item).record (.answered key item))
          | (.error e, s) => (.error e, s) := by
  have hnote : ∀ (e : Event) (t : Course S), (note (S := S) e).run.run t = (.ok (), t.record e) := fun _ _ => rfl
  simp only [memoCall, run_bind, hnote, run_memoised]
  have hcache : (s.record (.called key)).cache = s.cache := rfl
  rw [hcache]
  cases (s.cache.lookup key).1 with
  | some item => rfl
  | none =>
    dsimp only
    rcases compute.run.run (((s.record (.called key)).look key).record (.began key)) with ⟨_ | item, t⟩
    · rfl
    · rfl

theorem run_analyzeTextBy (content path : String) (s : Course S) :
    let issues := textIssues path content.toList
    let size := (lines content.toList).length
    (analyzeTextBy scoreCall content path).run.run s =
      match (scoreCall (.of issues) size).run.run s with
      | (.ok (.score score), s) => (.ok ⟨path, issues, .of issues, score, size⟩, s)
      | (.ok (.value _), s) => (.error (.fault .noMember), s)
      | (.error e, s) => (.error e, s) := by
  intro issues size
  rw [analyzeTextBy, run_bind]
  rcases (scoreCall (.of issues) size).run.run s with ⟨_ | _ | _, t⟩ <;> rfl

theorem analyzeTextBy_course (content path : String) (s : Course S) :
    ((analyzeTextBy scoreCall content path).run.run s).2 =
      ((scoreCall (.of (textIssues path content.toList)) (lines content.toList).length).run.run s).2 := by
  rw [run_analyzeTextBy]
  rcases (scoreCall (.of (textIssues path content.toList)) (lines content.toList).length).run.run s with
    ⟨_ | _ | _, t⟩ <;> rfl

/-! ### Steps -/

/-- The courses that single steps lead to.  A memoised call whose lookup misses begins to run its function at once, and
what the function gives is kept and answered at once. -/
inductive Reached (start : Course S) : Course S → Prop
  | start : Reached start start
  | got {s : Course S} (h : Reached start s) (key : Value) :
      Reached start ((s.look key).record (.got key (s.cache.lookup key).1))
  | put {s : Course S} (h : Reached start s) (key : Value) (item : CacheItem) : Reached start (s.keep key item)
  | hit {s : Course S} (h : Reached start s) {key : Value} {item : CacheItem}
      (hfound : (s.cache.lookup key).1 = some item) :
      Reached start (((s.record (.called key)).look key).record (.answered key item))
  | miss {s : Course S} (h : Reached start s) {key : Value} (hmissed : (s.cache.lookup key).1 = none) :
      Reached start (((s.record (.called key)).look key).record (.began key))
  | kept {s : Course S} (h : Reached start s) (key : Value) (item : CacheItem) :
      Reached start ((s.keep key item).record (.answered key item))
  | analysed {s : Course S} (h : Reached start s) (content path : String) (answer : Except Failure FileAnalysis) :
      Reached start (s.record (.analysed content path answer))
  | clear {s : Course S} (h : Reached start s) : Reached start s.clear
  | close {s : Course S} (h : Reached start s) : Reached start s.close

namespace Reached

variable {start s : Course S}

/-- A memoised call goes in single steps if its function does. -/
theorem memoCall (h : Reached start s) (key : Value) {compute : Session S CacheItem}
    (hcompute : ∀ {t : Course S}, Reached start t → Reached start (compute.run.run t).2) :
    Reached start ((memoCall key compute).run.run s).2 := by
  rw [run_memoCall]
  cases hfound : (s.cache.lookup key).1 with
  | some item => exact h.hit hfound
  | none =>
    have hrun := hcompute (h.miss hfound)
    rcases hresult : compute.run.run (((s.record (.called key)).look key).record (.began key)) with ⟨_ | item, t⟩
    all_goals simp only [hresult] at hrun ⊢
    · exact hrun
    · exact hrun.kept key item

theorem analyzeTextBy (h : Reached start s) (content path : String) :
    Reached start ((Cache.analyzeTextBy scoreCall content path).run.run s).2 := by
  rw [analyzeTextBy_course]
  exact h.memoCall _ id

/-- Whatever a client does goes in single steps. -/
theorem run (client : Client) : ∀ {s : Course S}, Reached start s → Reached start (client.run s).2 := by
  induction client with
  | done result => exact id
  | get key next ih => exact fun h => ih _ (h.got key)
  | set key item next ih => exact fun h => ih (h.put key item)
  | call key function next ihf ih => exact fun h => ih _ (h.memoCall key ihf)
  | analyze content path next ih =>
    intro s h
    exact ih _ ((h.analyzeTextBy content path).analysed content path _)
  | clear next ih => exact fun h => ih _ h.clear
  | close next ih => exact fun h => ih h.close

end Reached

end Cache

end ScoreGate
