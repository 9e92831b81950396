import ScoreGate.Cache.Memory
import ScoreGate.Proofs.Courses

/-!
# When the storage of a cache fails

Once the storage of a cache fails for good it does so whatever is done with the cache.  Lookups then miss, nothing is kept,
and a memoised function is run and its result given, all without a failure.  Clearing alone fails, and it has reset the
counters by then.

* `Cache.IsDown`, `Cache.isDown_reached`: a cache whose storage fails for good, and that it stays so.
* `Cache.Request`, `Cache.Course.perform`: what can be asked of a cache.
* `Cache.Course.Completes`, `Cache.Course.Lawful`, `Cache.perform_outage`: what is to come of it, and when it does.
-/

namespace ScoreGate

/-! ### Storages that fail for good -/

/-- Whatever a storage is asked for from now on fails. -/
def Storage.IsDown (S : Storage) (state : S.State) : Prop :=
  ∀ (as : List Storage.Access) (a : Storage.Access), (S.access (as.foldl (fun t b => (S.access t b).2) state) a).1 = false

namespace Storage.IsDown

variable {S : Storage} {state : S.State}

theorem fails (h : S.IsDown state) (a : Storage.Access) : (S.access state a).1 = false := h [] a

theorem access (h : S.IsDown state) (a : Storage.Access) : S.IsDown (S.access state a).2 := fun as => h (a :: as)

end Storage.IsDown

namespace Cache

variable {S : Storage}

/-- The storage of a cache, if there is one, fails for good. -/
def IsDown (c : Cache S) : Prop := ∀ directory state, c.storage = some (directory, state) → S.IsDown state

namespace IsDown

variable {c : Cache S}

theorem of_storage {d : Cache S} (h : c.IsDown) (hstorage : d.storage = c.storage) : d.IsDown := by
  rw [IsDown, hstorage]
  exact h

theorem of_access {directory : Location} {state : S.State} (h : c.IsDown) (hopened : c.opened? = some (directory, state))
    (a : Storage.Access) {d : Cache S} (hstorage : d.storage = some (directory, (S.access state a).2)) : d.IsDown := by
  rw [opened?] at hopened
  split_ifs at hopened
  intro directory' state' heq
  rw [hstorage] at heq
  cases heq
  exact (h directory state hopened).access a

theorem state (h : c.IsDown) {directory : Location} {state : S.State} (hopened : c.opened? = some (directory, state)) :
    S.IsDown state := by
  rw [opened?] at hopened
  split_ifs at hopened
  exact h directory state hopened

theorem lookup (h : c.IsDown) (key : Value) : (c.lookup key).1 = none ∧ (c.lookup key).2.hits = c.hits ∧
    (c.lookup key).2.misses = c.misses + 1 ∧ (c.lookup key).2.IsDown := by
  rw [Cache.lookup]
  rcases hopened : c.opened? with _ | ⟨directory, state⟩
  · exact ⟨rfl, rfl, rfl, h.of_storage rfl⟩
  · have hfails := (h.state hopened).fails (.get key)
    dsimp only
    rcases hget : S.get key state with ⟨e | found, state'⟩
    · refine ⟨rfl, rfl, rfl, h.of_access hopened (.get key) ?_⟩
      simp [Storage.access, hget]
    · simp [Storage.access, hget, Except.isOk, Except.toBool] at hfails

theorem insert (h : c.IsDown) (key : Value) (item : CacheItem) : (c.insert key item).IsDown := by
  rw [Cache.insert]
  rcases hopened : c.opened? with _ | ⟨directory, state⟩
  · exact h
  · exact h.of_access hopened (.set key item) rfl

/-- Clearing a cache that is in use fails, and its counters are reset. -/
theorem clear_opened (h : c.IsDown) (hopened : c.opened?.isSome = true) :
    c.clear.1 = .error .backend ∧ c.clear.2.hits = 0 ∧ c.clear.2.misses = 0 := by
  obtain ⟨⟨directory, state⟩, hopened⟩ := Option.isSome_iff_exists.mp hopened
  have hfails := (h.state hopened).fails .clear
  have hreset : ({ c with hits := 0, misses := 0 } : Cache S).opened? = some (directory, state) := hopened
  simp only [Cache.clear, hreset, and_self, and_true]
  rcases hclear : (S.clear state).1 with e | _
  · rfl
  · simp [Storage.access, hclear, Except.isOk, Except.toBool] at hfails

theorem clear (h : c.IsDown) : c.clear.2.IsDown := by
  have hreset : IsDown { c with hits := 0, misses := 0 } := h.of_storage rfl
  rw [Cache.clear]
  rcases hopened : ({ c with hits := 0, misses := 0 } : Cache S).opened? with _ | ⟨directory, state⟩
  · exact hreset
  · exact hreset.of_access hopened .clear rfl

theorem close (h : c.IsDown) (t : Tree) : (c.close t).1.IsDown := by
  rw [Cache.close]
  split
  · exact h.of_storage rfl
  · rintro _ _ ⟨⟩

end IsDown

/-- Whatever is done, a cache whose storage fails for good stays so. -/
theorem isDown_reached {s t : Course S} (hs : s.cache.IsDown) (h : Reached s t) : t.cache.IsDown := by
  induction h with
  | start => exact hs
  | got _ key ih => exact (ih.lookup key).2.2.2
  | put _ key item ih => exact ih.insert key item
  | hit _ _ ih => exact (ih.lookup _).2.2.2
  | miss _ _ ih => exact (ih.lookup _).2.2.2
  | kept _ key item ih => exact ih.insert key item
  | analysed _ _ _ _ ih => exact ih
  | clear _ ih => exact ih.clear
  | close _ ih => exact ih.close _

/-! ### Requests -/

/-- What can be asked of a cache. -/
inductive Request where
  | get (key : Value)
  | set (key : Value) (item : CacheItem)
  | call (key : Value) (function : Client)
  | clear

namespace Course

/-- What is given, if anything is, and the course afterwards. -/
def perform (s : Course S) : Request → Except Failure (Option CacheItem) × Course S
  | .get key => (.ok (s.cache.lookup key).1, (s.look key).record (.got key (s.cache.lookup key).1))
  | .set key item => (.ok none, s.keep key item)
  | .call key function =>
      let (result, s) := (memoCall key fun s => function.run s).run.run s
      (result.map some, s)
  | .clear => (s.cache.clear.1.map fun _ => none, s.clear)

/-- The course in which the function of a memoised call is run. -/
def entered (s : Course S) (key : Value) : Course S := ((s.record (.called key)).look key).record (.began key)

/-- A request has its effect without a storage that works: a lookup misses, nothing is kept, a function is run after a miss
and its result is given, and clearing leaves nothing kept and nothing counted. -/
def Completes (s : Course S) : Request → Prop
  | .get key => (s.perform (.get key)).1 = .ok none ∧
      (s.perform (.get key)).2.cache.hits = s.cache.hits ∧ (s.perform (.get key)).2.cache.misses = s.cache.misses + 1
  | .set key item => (s.perform (.set key item)).1 = .ok none ∧
      (s.perform (.set key item)).2.cache.hits = s.cache.hits ∧ (s.perform (.set key item)).2.cache.misses = s.cache.misses
  | .call key function =>
      (s.entered key).cache.hits = s.cache.hits ∧ (s.entered key).cache.misses = s.cache.misses + 1 ∧
        (s.perform (.call key function)).1 = (function.run (s.entered key)).1.map some ∧
        (s.perform (.call key function)).2.cache.hits = (function.run (s.entered key)).2.cache.hits ∧
        (s.perform (.call key function)).2.cache.misses = (function.run (s.entered key)).2.cache.misses
  | .clear => (s.perform .clear).1 = .ok none ∧
      (s.perform .clear).2.cache.hits = 0 ∧ (s.perform .clear).2.cache.misses = 0 ∧
      ∀ key, ((s.perform .clear).2.cache.lookup key).1 = none

/-- A request has its effect, or it fails and the counters are as before. -/
def Lawful (s : Course S) (r : Request) : Prop :=
  s.Completes r ∨ ∃ e, (s.perform r).1 = .error e ∧ (s.perform r).2.cache.hits = s.cache.hits ∧
    (s.perform r).2.cache.misses = s.cache.misses

end Course

/-- Keeping something counts nothing. -/
theorem insert_counters (c : Cache S) (key : Value) (item : CacheItem) :
    (c.insert key item).hits = c.hits ∧ (c.insert key item).misses = c.misses := by
  rw [insert]
  split <;> exact ⟨rfl, rfl⟩

theorem lookup_missed {c : Cache S} {key : Value} (h : (c.lookup key).1 = none) :
    (c.lookup key).2.hits = c.hits ∧ (c.lookup key).2.misses = c.misses + 1 := by
  rw [lookup] at h ⊢
  split at h
  · exact ⟨rfl, rfl⟩
  · split at h
    · cases h
    · exact ⟨rfl, rfl⟩

/-- A memoised call whose lookup misses runs its function and gives what that gives, whatever becomes of the storage. -/
theorem completes_call {s : Course S} {key : Value} (h : (s.cache.lookup key).1 = none) (function : Client) :
    s.Completes (.call key function) := by
  obtain ⟨hhits, hmisses⟩ := lookup_missed h
  refine ⟨hhits, hmisses, ?_⟩
  have hcall : (memoCall key fun s => function.run s).run.run s =
      match function.run (s.entered key) with
      | (.ok item, s) => (.ok item, (s.keep key item).record (.answered key item))
      | (.error e, s) => (.error e, s) := by
    rw [run_memoCall, h]
    rfl
  rw [Course.perform, hcall]
  rcases function.run (s.entered key) with ⟨e | item, t⟩
  · exact ⟨rfl, rfl, rfl⟩
  · obtain ⟨hhits, hmisses⟩ := insert_counters t.cache key item
    exact ⟨rfl, hhits, hmisses⟩

theorem lawful_iff {s : Course S} (h : s.cache.IsDown) (r : Request) : s.Lawful r ↔
    ¬(r = .clear ∧ s.cache.opened?.isSome = true ∧ ¬(s.cache.hits = 0 ∧ s.cache.misses = 0)) := by
  cases r with
  | get key =>
    obtain ⟨hfound, hhits, hmisses, -⟩ := h.lookup key
    exact iff_of_true (.inl ⟨congrArg Except.ok hfound, hhits, hmisses⟩) (by simp)
  | set key item =>
    obtain ⟨hhits, hmisses⟩ := insert_counters s.cache key item
    exact iff_of_true (.inl ⟨rfl, hhits, hmisses⟩) (by simp)
  | call key function => exact iff_of_true (.inl (completes_call (h.lookup key).1 function)) (by simp)
  | clear =>
    -- a cache in use sets its counters to zero before its storage fails
    by_cases hopened : s.cache.opened?.isSome = true
    · obtain ⟨herror, hhits, hmisses⟩ := h.clear_opened hopened
      have hanswer : (s.perform .clear).1 = .error .backend := by rw [Course.perform, herror]; rfl
      constructor
      · rintro (⟨hok, -⟩ | ⟨e, -, hkept, hkept'⟩)
        · rw [hanswer] at hok
          cases hok
        · simp [← hkept, ← hkept', Course.perform, Course.clear, hhits, hmisses]
      · intro hcounted
        have hzero : s.cache.hits = 0 ∧ s.cache.misses = 0 := by simpa [hopened] using hcounted
        exact .inr ⟨_, hanswer, hhits.trans hzero.1.symm, hmisses.trans hzero.2.symm⟩
    · have hnone : s.cache.opened? = none := by simpa using hopened
      have hclear : s.cache.clear = (.ok (), { s.cache with hits := 0, misses := 0 }) := by
        have hreset : ({ s.cache with hits := 0, misses := 0 } : Cache S).opened? = none := hnone
        simp only [Cache.clear, hreset]
      refine iff_of_true (.inl ⟨?_, ?_, ?_, fun key => ?_⟩) (by simp [hnone])
      all_goals simp only [Course.perform, Course.clear, hclear]
      · rfl
      · have hreset : ({ s.cache with hits := 0, misses := 0 } : Cache S).opened? = none := hnone
        simp only [Cache.lookup, hreset]

/-- Whatever a client does after the storage has begun to fail for good, every request has its effect then, or fails and
leaves the counters alone, unless a cache that is in use is to be cleared: that fails and resets the counters.  A memoised
call whose lookup misses has its effect however the storage fails while its function is run and afterwards. -/
theorem perform_outage {s : Course S} (hdown : s.cache.IsDown) (later : Client) :
    let t := (later.run s).2
    (∀ r, t.Lawful r ↔ ¬(r = .clear ∧ t.cache.opened?.isSome = true ∧ ¬(t.cache.hits = 0 ∧ t.cache.misses = 0))) ∧
      (t.cache.opened?.isSome = true → (t.perform .clear).1 = .error .backend ∧
        (t.perform .clear).2.cache.hits = 0 ∧ (t.perform .clear).2.cache.misses = 0) ∧
      ∀ (u : Course S) key function, (u.cache.lookup key).1 = none → u.Completes (.call key function) := by
  have hlater : (later.run s).2.cache.IsDown := isDown_reached hdown (.run later .start)
  refine ⟨lawful_iff hlater, fun hopened => ?_, fun u key function h => completes_call h function⟩
  obtain ⟨herror, hhits, hmisses⟩ := hlater.clear_opened hopened
  exact ⟨by rw [Course.perform, herror]; rfl, hhits, hmisses⟩

theorem isDown_memory {lifetime : Option ℕ} {m : (Storage.memory lifetime).State} (h : Storage.Memory.left m = some 0) :
    (Storage.memory lifetime).IsDown m := by
  have hfailed {α : Type} (result : α) (es : List (Value × CacheItem)) :
      Storage.Memory.access m result es = (.error ⟨"disk I/O error"⟩, m) := if_pos h
  have haccess : ∀ a, (Storage.memory lifetime).access m a = (false, m) := by
    intro a
    cases a <;> simp only [Storage.access, Storage.memory, hfailed] <;> rfl
  intro as a
  induction as with
  | nil => exact congrArg Prod.fst (haccess a)
  | cons b bs ih => rwa [List.foldl_cons, haccess]

/-- A lookup is counted before the storage fails, and then the cache is to be cleared. -/
def counted : Course (.memory (some 1)) :=
  ((Client.get (.text "a") fun _ => .done (.ok (.value .null))).run
    (.start _ .empty (some (.inMemory (some 1))))).2

theorem perform_outage_counted : counted.cache.IsDown ∧ counted.cache.misses = 1 ∧ ¬counted.Lawful .clear ∧
    (counted.perform .clear).2.cache.misses = 0 := by
  have hdown : counted.cache.IsDown := by
    rintro _ _ ⟨⟩
    exact isDown_memory rfl
  obtain ⟨hlawful, hclear, -⟩ := perform_outage hdown (.done (.ok (.value .null)))
  refine ⟨hdown, rfl, fun h => ?_, (hclear rfl).2.2⟩
  exact (hlawful .clear).mp h ⟨rfl, rfl, fun hzero => absurd hzero.2 (by decide)⟩

end Cache

end ScoreGate
