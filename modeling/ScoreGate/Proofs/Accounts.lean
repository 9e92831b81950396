import ScoreGate.Proofs.Caching
import ScoreGate.Proofs.Locations

/-!
# The accounts of a cache

A cache counts every lookup, those of memoised calls included, as a hit or as a miss, and starts anew when it is cleared.
A memoised function is run where its lookup misses and nowhere else; so while the cache is open it is not run again for a
key under which its result was put, whatever the result is.  A cache that is switched off or closed finds and keeps
nothing, and only the first closing does something: it removes the directory if that belongs to the cache.

* `Storage.Works`, `Storage.last?`: a storage that never fails, and what it gives.
* `Cache.Agrees`, `Cache.Agrees.of_reached`: the cache after every step is what the events say.
* `Cache.Event.IsDue`, `Cache.Runs`, `Cache.Once`: why a lookup found what it found, and when functions are run.
* `Cache.Accounts`, `Cache.session_accounts`: what holds whatever a client does.
-/

namespace ScoreGate

/-! ### Storages that never fail -/

namespace Storage

variable {S : Storage}

def Works (S : Storage) : Prop := ∀ a as, ¬S.Fails a as

/-- What was last set under an equal key since the storage was cleared. -/
def last? (S : Storage) (key : Value) : List Access → Option CacheItem
  | [] => none
  | .get _ :: as => S.last? key as
  | .set k item :: as => if S.same k key then some item else S.last? key as
  | .clear :: _ => none

theorem eq_last?_of_mayGive (hworks : S.Works) {key : Value} {found : Option CacheItem} :
    ∀ {as : List Access}, S.MayGive key as found → found = S.last? key as
  | [], h => h
  | .get _ :: as, h => by
    rw [MayGive] at h
    rw [last?]
    exact eq_last?_of_mayGive hworks h
  | .set k item :: as, h => by
    rw [MayGive] at h
    rw [last?]
    split_ifs at h ⊢
    · exact h.resolve_right fun h => hworks _ _ h.1
    · exact eq_last?_of_mayGive hworks h
  | .clear :: as, h => h.resolve_right fun h => hworks _ _ h.1

/-- A lookup in a storage that never fails. -/
theorem get_after (hrecalls : S.Recalls) (hworks : S.Works) (key : Value) (as : List Access) :
    S.get key (S.after as) = (.ok (S.last? key as), S.after (.get key :: as)) := by
  have hdone := hworks (.get key) as
  rw [Fails, access] at hdone
  rcases hget : S.get key (S.after as) with ⟨e | found, state⟩
  · simp [hget, Except.isOk, Except.toBool] at hdone
  · rw [eq_last?_of_mayGive hworks (hrecalls _ _ _ _ hget), after, access, hget]

theorem clear_after (hworks : S.Works) (as : List Access) : (S.clear (S.after as)).1 = .ok () := by
  have hdone := hworks .clear as
  rw [Fails, access] at hdone
  rcases hclear : (S.clear (S.after as)).1 with e | _
  · simp [hclear, Except.isOk, Except.toBool] at hdone
  · rfl

end Storage

namespace Cache

variable {S : Storage}

/-! ### What the events say -/

namespace Event

def isLookup : Event → Bool
  | .got .. | .called _ => true
  | _ => false

def isClearing : Event → Bool
  | .cleared => true
  | _ => false

def isClosing : Event → Bool
  | .closed => true
  | _ => false

/-- The key that a memoised function is run for. -/
def run? : Event → Option Value
  | .began key => some key
  | _ => none

end Event

def sinceClear (es : List Event) : List Event := es.takeWhile fun e => !e.isClearing

@[simp] theorem sinceClear_cons (e : Event) (es : List Event) :
    sinceClear (e :: es) = if e.isClearing then [] else e :: sinceClear es := by
  cases h : e.isClearing <;> simp [sinceClear, h]

/-- How a cache started: switched on or off, and on a storage with these accesses before. -/
structure Start (S : Storage) where
  enabled : Bool
  earlier : List Storage.Access

namespace Start

variable (b : Start S)

/-- The cache was switched on and has not been closed. -/
def isOpen (es : List Event) : Bool := b.enabled && es.all fun e => !e.isClosing

/-- What was last put under an equal key since the cache was cleared, or was there before. -/
def last? (key : Value) : List Event → Option CacheItem
  | [] => S.last? key b.earlier
  | .put k item :: es => if S.same k key then some item else last? key es
  | .cleared :: _ => none
  | _ :: es => last? key es

def found? (key : Value) (es : List Event) : Option CacheItem := if b.isOpen es then b.last? key es else none

/-- The lookups since the cache was cleared that found something, and those that did not. -/
def tally : List Event → ℕ × ℕ
  | [] => (0, 0)
  | .got key _ :: es | .called key :: es =>
      if (b.found? key es).isSome then ((tally es).1 + 1, (tally es).2) else ((tally es).1, (tally es).2 + 1)
  | .cleared :: _ => (0, 0)
  | _ :: es => tally es

variable {b}

@[simp] theorem isOpen_cons (e : Event) (es : List Event) : b.isOpen (e :: es) = (!e.isClosing && b.isOpen es) := by
  rw [isOpen, isOpen, List.all_cons, Bool.and_left_comm]

theorem tally_lookups : ∀ es : List Event, (b.tally es).1 + (b.tally es).2 = (sinceClear es).countP Event.isLookup
  | [] => rfl
  | e :: es => by
    have ih := tally_lookups es
    cases e with
    | got key _ | called key =>
      rw [tally]
      split_ifs <;> simp only [sinceClear_cons, Event.isClearing, Bool.false_eq_true, if_false, List.countP_cons,
        Event.isLookup, if_true] <;> omega
    | cleared => simp [tally, Event.isClearing]
    | began | put | answered | analysed | closed => simp [tally, Event.isClearing, Event.isLookup, ih]

theorem not_put_of_last? {key k : Value} {item : CacheItem} {es : List Event} (h : b.last? key es = none)
    (hput : .put k item ∈ sinceClear es) : S.same k key = false := by
  induction es with
  | nil => cases hput
  | cons e es ih =>
    cases e with
    | put l i =>
      rw [last?] at h
      split_ifs at h with hl
      rw [sinceClear_cons] at hput
      rcases List.mem_cons.mp hput with heq | hput
      · cases heq
        exact Bool.eq_false_iff.mpr hl
      · exact ih h hput
    | cleared => cases hput
    | got | called | began | answered | analysed | closed =>
      rw [sinceClear_cons] at hput
      rcases List.mem_cons.mp hput with heq | hput
      · cases heq
      · exact ih h hput

end Start

/-! ### The cache and the events -/

/-- The cache is what the events say.  As long as it is open, its storage is as it was at the start and as it was asked
since. -/
structure Agrees {t : Tree} (d : Option (CacheDirectory S t)) (b : Start S) (s : Course S) : Prop where
  enabled : s.cache.enabled = b.isOpen s.events
  opened : b.isOpen s.events = true → ∃ e ∈ d, ∃ as, s.cache.storage = some (e.location, S.after as) ∧
    ∀ key, S.last? key as = b.last? key s.events
  closed : b.isOpen s.events = false → s.cache.storage = none
  owns : s.cache.ownsDirectory = d.any CacheDirectory.isTemporary
  counted : (s.cache.hits, s.cache.misses) = b.tally s.events

namespace Agrees

variable {t : Tree} {d : Option (CacheDirectory S t)} {b : Start S} {s : Course S}

theorem opened?_of_open (h : Agrees d b s) (hopen : b.isOpen s.events = true) : ∃ e ∈ d, ∃ as,
    s.cache.opened? = some (e.location, S.after as) ∧ s.cache.storage = some (e.location, S.after as) ∧
      ∀ key, S.last? key as = b.last? key s.events := by
  obtain ⟨e, he, as, hstorage, hlast⟩ := h.opened hopen
  exact ⟨e, he, as, by rw [opened?, h.enabled, hopen, hstorage]; rfl, hstorage, hlast⟩

theorem opened?_of_closed (h : Agrees d b s) (hclosed : b.isOpen s.events = false) : s.cache.opened? = none := by
  rw [opened?, h.enabled, hclosed]
  rfl

/-- An event that says nothing about the cache. -/
theorem record (h : Agrees d b s) {e : Event} (hclosing : e.isClosing = false)
    (hlast : ∀ key, b.last? key (e :: s.events) = b.last? key s.events) (htally : b.tally (e :: s.events) = b.tally s.events) :
    Agrees d b (s.record e) := by
  have hopen : b.isOpen (s.record e).events = b.isOpen s.events := by
    rw [Course.record, Start.isOpen_cons, hclosing]
    rfl
  refine ⟨h.enabled.trans hopen.symm, fun ho => ?_, fun hc => h.closed (hopen ▸ hc), h.owns, h.counted.trans htally.symm⟩
  obtain ⟨e, he, as, hstorage, has⟩ := h.opened (hopen ▸ ho)
  exact ⟨e, he, as, hstorage, fun key => (has key).trans (hlast key).symm⟩

section Lookups

variable (hrecalls : S.Recalls) (hworks : S.Works)
include hrecalls hworks

/-- A lookup finds what was last put under an equal key, and is counted as what it is. -/
theorem lookup (h : Agrees d b s) (key : Value) : (s.cache.lookup key).1 = b.found? key s.events ∧
    ((s.cache.lookup key).2.hits, (s.cache.lookup key).2.misses) =
      (if (b.found? key s.events).isSome then (s.cache.hits + 1, s.cache.misses) else (s.cache.hits, s.cache.misses + 1)) := by
  rw [Cache.lookup, Start.found?]
  cases hopen : b.isOpen s.events with
  | false =>
    rw [h.opened?_of_closed hopen]
    exact ⟨rfl, rfl⟩
  | true =>
    obtain ⟨e, -, as, hopened, -, hlast⟩ := h.opened?_of_open hopen
    rw [hopened]
    simp only [Storage.get_after hrecalls hworks, hlast key]
    cases b.last? key s.events <;> exact ⟨rfl, rfl⟩

theorem look (h : Agrees d b s) {key : Value} {e : Event} (hlookup : e = .called key ∨ ∃ found, e = .got key found) :
    Agrees d b ((s.look key).record e) := by
  obtain ⟨-, hcounted⟩ := h.lookup hrecalls hworks key
  -- a lookup puts nothing under a key and clears nothing, so only the counters move
  have hopen : b.isOpen ((s.look key).record e).events = b.isOpen s.events := by
    rcases hlookup with rfl | ⟨found, rfl⟩ <;> exact Start.isOpen_cons _ _
  have hlast : ∀ k, b.last? k ((s.look key).record e).events = b.last? k s.events := by
    rcases hlookup with rfl | ⟨found, rfl⟩ <;> exact fun _ => rfl
  have htally : b.tally ((s.look key).record e).events =
      if (b.found? key s.events).isSome then ((b.tally s.events).1 + 1, (b.tally s.events).2)
      else ((b.tally s.events).1, (b.tally s.events).2 + 1) := by
    rcases hlookup with rfl | ⟨found, rfl⟩ <;> rfl
  have hsame : (s.cache.lookup key).2.enabled = s.cache.enabled ∧
      (s.cache.lookup key).2.ownsDirectory = s.cache.ownsDirectory := by
    rw [Cache.lookup]
    split
    · exact ⟨rfl, rfl⟩
    · split <;> exact ⟨rfl, rfl⟩
  refine ⟨?enabled, fun ho => ?opened, fun hc => ?closed, ?owns, ?counted⟩
  case enabled => rw [hopen, ← h.enabled]; exact hsame.1
  case owns => rw [← h.owns]; exact hsame.2
  case opened =>
    obtain ⟨e, he, as, hopened, -, has⟩ := h.opened?_of_open (hopen ▸ ho)
    refine ⟨e, he, .get key :: as, ?_, fun k => (has k).trans (hlast k).symm⟩
    rw [Course.record, Course.look, Cache.lookup, hopened]
    simp only [Storage.get_after hrecalls hworks]
    cases S.last? key as <;> rfl
  case closed =>
    rw [hopen] at hc
    rw [Course.record, Course.look, Cache.lookup, h.opened?_of_closed hc]
    exact h.closed hc
  case counted =>
    rw [htally, ← h.counted]
    exact hcounted

end Lookups

theorem insert_same (c : Cache S) (key : Value) (item : CacheItem) : (c.insert key item).enabled = c.enabled ∧
    (c.insert key item).ownsDirectory = c.ownsDirectory ∧ (c.insert key item).hits = c.hits ∧
      (c.insert key item).misses = c.misses := by
  rw [insert]
  split <;> exact ⟨rfl, rfl, rfl, rfl⟩

theorem keep (h : Agrees d b s) (key : Value) (item : CacheItem) : Agrees d b (s.keep key item) := by
  obtain ⟨henabled, howns, hhits, hmisses⟩ := insert_same s.cache key item
  have hopen : b.isOpen (s.keep key item).events = b.isOpen s.events := Start.isOpen_cons _ _
  refine ⟨?enabled, fun ho => ?opened, fun hc => ?closed, howns.trans h.owns, ?counted⟩
  case enabled => rw [hopen, ← h.enabled]; exact henabled
  case opened =>
    obtain ⟨e, he, as, hopened, -, has⟩ := h.opened?_of_open (hopen ▸ ho)
    refine ⟨e, he, .set key item :: as, ?_, fun k => ?_⟩
    · rw [Course.keep, Cache.insert, hopened]
      rfl
    · rw [Course.keep, Storage.last?, Start.last?, has k]
  case closed =>
    rw [hopen] at hc
    rw [Course.keep, Cache.insert, h.opened?_of_closed hc]
    exact h.closed hc
  case counted =>
    have htally : b.tally (s.keep key item).events = b.tally s.events := rfl
    rw [htally, ← h.counted, ← hhits, ← hmisses]
    rfl

theorem clear (h : Agrees d b s) : Agrees d b s.clear := by
  have hopen : b.isOpen s.clear.events = b.isOpen s.events := Start.isOpen_cons _ _
  have hreset : ({ s.cache with hits := 0, misses := 0 } : Cache S).opened? = s.cache.opened? := rfl
  have hsame : s.cache.clear.2.enabled = s.cache.enabled ∧ s.cache.clear.2.ownsDirectory = s.cache.ownsDirectory ∧
      s.cache.clear.2.hits = 0 ∧ s.cache.clear.2.misses = 0 := by
    simp only [Cache.clear]
    split <;> exact ⟨rfl, rfl, rfl, rfl⟩
  refine ⟨?enabled, fun ho => ?opened, fun hc => ?closed, hsame.2.1.trans h.owns, ?counted⟩
  case enabled => rw [hopen, ← h.enabled]; exact hsame.1
  case opened =>
    obtain ⟨e, he, as, hopened, -, -⟩ := h.opened?_of_open (hopen ▸ ho)
    refine ⟨e, he, .clear :: as, ?_, fun k => rfl⟩
    simp only [Course.clear, Cache.clear, hreset, hopened]
    rfl
  case closed =>
    rw [hopen] at hc
    simp only [Course.clear, Cache.clear, hreset, h.opened?_of_closed hc]
    exact h.closed hc
  case counted =>
    rw [Course.clear, Start.tally, hsame.2.2.1, hsame.2.2.2]

/-- Clearing succeeds where the storage does not fail. -/
theorem clears (hworks : S.Works) (h : Agrees d b s) : s.cache.clear.1 = .ok () := by
  have hreset : ({ s.cache with hits := 0, misses := 0 } : Cache S).opened? = s.cache.opened? := rfl
  simp only [Cache.clear, hreset]
  cases hopen : b.isOpen s.events with
  | false => rw [h.opened?_of_closed hopen]
  | true =>
    obtain ⟨e, -, as, hopened, -⟩ := h.opened?_of_open hopen
    simp only [hopened, Storage.clear_after hworks]
    rfl

theorem close (h : Agrees d b s) : Agrees d b s.close := by
  have hclosed : b.isOpen s.close.events = false := Start.isOpen_cons _ _
  have hsame : (s.cache.close s.tree).1 = { s.cache with enabled := false, storage := none } := by
    rw [Cache.close]
    split
    case h_1 hnone => rw [← hnone]
    case h_2 => rfl
  refine ⟨?enabled, fun ho => ?opened, fun _ => ?closed, ?owns, ?counted⟩
  case enabled => rw [hclosed, Course.close, hsame]
  case opened => rw [hclosed] at ho; cases ho
  case closed => rw [Course.close, hsame]
  case owns => rw [Course.close, hsame]; exact h.owns
  case counted =>
    have htally : b.tally s.close.events = b.tally s.events := rfl
    rw [htally, Course.close, hsame]
    exact h.counted

/-- A cache on a directory, or one that is switched off. -/
theorem start {earlier : List Storage.Access} (hstate : ∀ e ∈ d, e.state = S.after earlier) :
    Agrees d ⟨d.isSome, earlier⟩ (.start S t d) := by
  cases d with
  | none => exact ⟨rfl, nofun, fun _ => rfl, rfl, rfl⟩
  | some e => exact ⟨rfl, fun _ => ⟨e, rfl, earlier, by rw [← hstate e rfl]; rfl, fun _ => rfl⟩, nofun, rfl, rfl⟩

/-- Every step keeps the cache what the events say. -/
theorem of_reached (hrecalls : S.Recalls) (hworks : S.Works) {start : Course S} (hstart : Agrees d b start)
    (h : Reached start s) : Agrees d b s := by
  induction h with
  | start => exact hstart
  | got _ key ih => exact ih.look hrecalls hworks (Or.inr ⟨_, rfl⟩)
  | put _ key item ih => exact ih.keep key item
  | hit _ _ ih => exact (ih.look hrecalls hworks (Or.inl rfl)).record rfl (fun _ => rfl) rfl
  | miss _ _ ih => exact (ih.look hrecalls hworks (Or.inl rfl)).record rfl (fun _ => rfl) rfl
  | kept _ key item ih => exact (ih.keep key item).record rfl (fun _ => rfl) rfl
  | analysed _ _ _ _ ih => exact ih.record rfl (fun _ => rfl) rfl
  | clear _ ih => exact ih.clear
  | close _ ih => exact ih.close

end Agrees

/-! ### Why a lookup finds what it finds -/

/-- What an event says of those before it: a lookup finds what was last put, a function is run on a memoised lookup that
finds nothing, and a memoised call answers with what is found or with what has just been put. -/
def Event.IsDue (b : Start S) : Event → List Event → Prop
  | .got key found, es => found = b.found? key es
  | .began key, es => ∃ before, es = .called key :: before ∧ b.found? key before = none
  | .answered key item, es =>
      (∃ before, es = .called key :: before ∧ b.found? key before = some item) ∨ ∃ before, es = .put key item :: before
  | _, _ => True

/-- On every memoised lookup that finds nothing the function is run. -/
def Runs (b : Start S) (es : List Event) : Prop := ∀ key before, .called key :: before <:+ es →
  b.found? key before = none → .began key :: .called key :: before <:+ es

theorem forall_suffix_cons {P : Event → List Event → Prop} {e : Event} {es : List Event} (he : P e es)
    (h : ∀ f before, f :: before <:+ es → P f before) : ∀ f before, f :: before <:+ e :: es → P f before := by
  intro f before hf
  rcases List.suffix_cons_iff.mp hf with heq | hf
  · cases heq
    exact he
  · exact h f before hf

theorem Runs.cons {b : Start S} {es : List Event} (h : Runs b es) {e : Event} (he : ∀ key, e ≠ .called key) :
    Runs b (e :: es) := by
  intro key before hcalled hmissed
  rcases List.suffix_cons_iff.mp hcalled with heq | hcalled
  · exact absurd (List.cons.inj heq).1.symm (he key)
  · exact (h key before hcalled hmissed).trans (List.suffix_cons _ _)

section Due

variable {t : Tree} {d : Option (CacheDirectory S t)} {b : Start S} {start s : Course S}
variable (hrecalls : S.Recalls) (hworks : S.Works) (hstart : Agrees d b start) (hnew : start.events = [])
include hrecalls hworks hstart hnew

theorem isDue_of_reached (h : Reached start s) : ∀ e before, e :: before <:+ s.events → e.IsDue b before := by
  induction h with
  | start => simp [hnew]
  | got h key ih =>
    exact forall_suffix_cons ((Agrees.of_reached hrecalls hworks hstart h).lookup hrecalls hworks key).1 ih
  | put _ key item ih => exact forall_suffix_cons trivial ih
  | hit h hfound ih =>
    rw [((Agrees.of_reached hrecalls hworks hstart h).lookup hrecalls hworks _).1] at hfound
    exact forall_suffix_cons (Or.inl ⟨_, rfl, hfound⟩) (forall_suffix_cons trivial ih)
  | miss h hmissed ih =>
    rw [((Agrees.of_reached hrecalls hworks hstart h).lookup hrecalls hworks _).1] at hmissed
    exact forall_suffix_cons ⟨_, rfl, hmissed⟩ (forall_suffix_cons trivial ih)
  | kept _ key item ih => exact forall_suffix_cons (Or.inr ⟨_, rfl⟩) (forall_suffix_cons trivial ih)
  | analysed _ _ _ _ ih => exact forall_suffix_cons trivial ih
  | clear _ ih => exact forall_suffix_cons trivial ih
  | close _ ih => exact forall_suffix_cons trivial ih

theorem runs_of_reached (h : Reached start s) : Runs b s.events := by
  induction h with
  | start => simp [Runs, hnew]
  | got _ key ih => exact ih.cons (by simp)
  | put _ key item ih => exact ih.cons (by simp)
  -- what was found was not missed, so nothing is to be run
  | @hit s h key item hfound ih =>
    rw [((Agrees.of_reached hrecalls hworks hstart h).lookup hrecalls hworks _).1] at hfound
    refine Runs.cons (fun k before hcalled hmissed => ?_) (by simp)
    rcases List.suffix_cons_iff.mp hcalled with heq | hcalled
    · cases heq
      cases hfound.symm.trans hmissed
    · exact (ih k before hcalled hmissed).trans (List.suffix_cons _ _)
  -- the function is begun by the very next event
  | @miss s _ key _ ih =>
    intro k before hcalled hmissed
    rcases List.suffix_cons_iff.mp hcalled with heq | hcalled
    · cases heq
    · rcases List.suffix_cons_iff.mp hcalled with heq | hcalled
      · cases heq
        exact List.suffix_rfl
      · exact (ih k before hcalled hmissed).trans ((List.suffix_cons _ _).trans (List.suffix_cons _ _))
  | kept _ key item ih => exact Runs.cons (ih.cons (by simp)) (by simp)
  | analysed _ _ _ _ ih => exact ih.cons (by simp)
  | clear _ ih => exact ih.cons (by simp)
  | close _ ih => exact ih.cons (by simp)

/-- While the cache is open no function is run for a key under which something was put since the cache was cleared. -/
theorem not_put_of_run (h : Reached start s) {key k : Value} {item : CacheItem} {before : List Event}
    (hrun : .began key :: before <:+ s.events) (hopen : b.isOpen before = true)
    (hput : .put k item ∈ sinceClear before) : S.same k key = false := by
  obtain ⟨es, rfl, hmissed⟩ := isDue_of_reached hrecalls hworks hstart hnew h _ _ hrun
  have hwas : b.isOpen es = true := (Start.isOpen_cons _ _).symm.trans hopen
  rw [Start.found?, if_pos hwas] at hmissed
  rw [sinceClear_cons] at hput
  rcases List.mem_cons.mp hput with heq | hput
  · cases heq
  · exact Start.not_put_of_last? hmissed hput

end Due

/-! ### Functions that give results -/

/-- Functions that are called give a result and do not use the cache themselves. -/
def Client.IsPlain : Client → Prop
  | .done _ => True
  | .get _ next => ∀ found, (next found).IsPlain
  | .set _ _ next => next.IsPlain
  | .call _ function next => (∃ item, function = .done (.ok item)) ∧ ∀ answer, (next answer).IsPlain
  | .analyze _ _ next => ∀ answer, (next answer).IsPlain
  | .clear next => ∀ answer, (next answer).IsPlain
  | .close next => next.IsPlain

/-- The keys that functions were run for since the cache was cleared, the latest first. -/
def runKeys (es : List Event) : List Value := (sinceClear es).filterMap Event.run?

/-- Every function that was run has had its result put, and no two of them were run for the same key. -/
structure Once (S : Storage) (es : List Event) : Prop where
  kept : ∀ key ∈ runKeys es, ∃ item, .put key item ∈ sinceClear es
  different : (runKeys es).Pairwise fun key k => S.same k key = false

theorem Once.nil : Once S [] := ⟨by simp [runKeys, sinceClear], .nil⟩

theorem Once.cons {es : List Event} (h : Once S es) {e : Event} (he : e.run? = none) : Once S (e :: es) := by
  cases hclear : e.isClearing with
  | true =>
    have hnone : runKeys (e :: es) = [] := by simp [runKeys, hclear]
    exact ⟨by simp [hnone], by simp [hnone]⟩
  | false =>
    have hsame : runKeys (e :: es) = runKeys es := by simp [runKeys, hclear, he]
    refine ⟨fun key hkey => ?_, hsame ▸ h.different⟩
    obtain ⟨item, hitem⟩ := h.kept key (hsame ▸ hkey)
    exact ⟨item, by simp [hclear, hitem]⟩

theorem Once.run {b : Start S} {es : List Event} (h : Once S es) {key : Value} (item : CacheItem)
    (hnothing : b.last? key es = none) : Once S (.put key item :: .began key :: .called key :: es) := by
  have hkeys : runKeys (.put key item :: .began key :: .called key :: es) = key :: runKeys es := by
    simp [runKeys, Event.isClearing, List.filterMap_cons, Event.run?]
  refine ⟨fun k hk => ?_, ?_⟩
  · rw [hkeys] at hk
    rcases List.mem_cons.mp hk with rfl | hk
    · exact ⟨item, by simp [Event.isClearing]⟩
    · obtain ⟨i, hi⟩ := h.kept k hk
      exact ⟨i, by simp [Event.isClearing, hi]⟩
  · rw [hkeys, List.pairwise_cons]
    refine ⟨fun k hk => ?_, h.different⟩
    obtain ⟨i, hi⟩ := h.kept k hk
    exact Start.not_put_of_last? hnothing hi

section Plain

variable {t : Tree} {d : Option (CacheDirectory S t)} {b : Start S} {start s : Course S}
variable (hrecalls : S.Recalls) (hworks : S.Works) (hstart : Agrees d b start)
include hrecalls hworks hstart

theorem once_memoCall (hs : Reached start s) (h : b.isOpen s.events = true → Once S s.events) (key : Value)
    (item : CacheItem) (hopen : b.isOpen ((memoCall key (pure item)).run.run s).2.events = true) :
    Once S ((memoCall key (pure item)).run.run s).2.events := by
  rw [run_memoCall] at hopen ⊢
  cases hfound : (s.cache.lookup key).1 with
  | some found =>
    simp only [hfound] at hopen ⊢
    exact ((h (by simpa [Course.record, Course.look, Event.isClosing] using hopen)).cons rfl).cons rfl
  | none =>
    -- the function is run only where nothing was put under the key since the cache was cleared
    rw [hfound] at hopen
    have hwas : b.isOpen s.events = true := hopen
    rw [((Agrees.of_reached hrecalls hworks hstart hs).lookup hrecalls hworks key).1, Start.found?, if_pos hwas]
      at hfound
    exact ((h hwas).run item hfound).cons rfl

theorem once_run (client : Client) : client.IsPlain → ∀ {s : Course S}, Reached start s →
    (b.isOpen s.events = true → Once S s.events) → b.isOpen (client.run s).2.events = true →
    Once S (client.run s).2.events := by
  -- by the steps of the client, from any course that is reached; only a memoised call runs a function
  induction client with
  | done _ => exact fun _ _ _ h => h
  | get key next ih =>
    intro hplain s hs h
    exact ih _ (hplain _) (hs.got key) fun hopen => (h ((Start.isOpen_cons _ _).symm.trans hopen)).cons rfl
  | set key item next ih =>
    intro hplain s hs h
    exact ih hplain (hs.put key item) fun hopen => (h ((Start.isOpen_cons _ _).symm.trans hopen)).cons rfl
  | call key function next _ ih =>
    rintro ⟨⟨item, rfl⟩, hplain⟩ s hs h
    exact ih _ (hplain _) (hs.memoCall key id) (once_memoCall hrecalls hworks hstart hs h key item)
  | analyze content path next ih =>
    intro hplain s hs h
    refine ih _ (hplain _) ((hs.analyzeTextBy content path).analysed content path _) fun hopen => ?_
    have hwas : b.isOpen ((analyzeTextBy scoreCall content path).run.run s).2.events = true :=
      (Start.isOpen_cons _ _).symm.trans hopen
    have hcall : Once S ((analyzeTextBy scoreCall content path).run.run s).2.events := by
      rw [analyzeTextBy_course] at hwas ⊢
      exact once_memoCall hrecalls hworks hstart hs h _ _ hwas
    exact hcall.cons rfl
  | clear next ih =>
    intro hplain s hs h
    exact ih _ (hplain _) hs.clear fun hopen => (h ((Start.isOpen_cons _ _).symm.trans hopen)).cons rfl
  | close next ih =>
    intro hplain s hs h
    exact ih hplain hs.close fun hopen => by rw [Course.close, Start.isOpen_cons] at hopen; cases hopen

end Plain

/-! ### The directory -/

section Directory

variable {t : Tree} {d : Option (CacheDirectory S t)} {b : Start S} {s : Course S}

theorem find?_eraseBelow {loc : Location} (hne : loc ≠ []) (u : Tree) (other : Location) :
    (u.eraseBelow loc).find? other = if loc <+: other then none else u.find? other := by
  have hfilter := Tree.findIn_filter (fun l => !loc.isPrefixOf l) other u.entries
  by_cases hnil : other = []
  · rw [hnil, if_neg (by simpa using hne)]
    rfl
  · rw [Tree.find?, if_neg hnil, Tree.find?, if_neg hnil, Tree.eraseBelow, hfilter]
    by_cases hbelow : loc <+: other <;> simp [hbelow]

/-- Making a directory where nothing was and removing it changes nothing. -/
theorem eraseBelow_put {loc : Location} (h : t.isFree loc = true) : (t.put loc .directory).eraseBelow loc = t := by
  obtain ⟨hne, hfree⟩ : loc ≠ [] ∧ ∀ e ∈ t.entries, loc.isPrefixOf e.1 = false := by
    simpa [Tree.isFree] using h
  have hnone : t.find? loc = none := by
    rw [Tree.find?, if_neg hne]
    by_contra hfound
    obtain ⟨n, hn⟩ := Option.ne_none_iff_exists'.mp hfound
    have hbelow := hfree _ (Tree.mem_of_findIn_eq_some hn)
    rw [Bool.eq_false_iff, ne_eq, List.isPrefixOf_iff_prefix] at hbelow
    exact hbelow List.prefix_rfl
  have hkept : (t.entries.filter fun e => !loc.isPrefixOf e.1) = t.entries :=
    List.filter_eq_self.mpr fun e he => by rw [hfree e he]; rfl
  rw [Tree.eraseBelow, Tree.entries_put_of_free hne hnone, List.filter_append, hkept]
  simp

/-- Closing removes what is at or below the directory if that is the cache's own, and nothing else. -/
theorem find?_close (h : Agrees d b s) (u : Tree) (loc : Location) : (s.cache.close u).2.find? loc =
    if b.isOpen s.events ∧ ∃ e ∈ d, e.isTemporary ∧ e.location <+: loc then none else u.find? loc := by
  cases hopen : b.isOpen s.events with
  | false => rw [Cache.close, h.closed hopen, if_neg (by simp)]
  | true =>
    obtain ⟨e, he, as, hstorage, -⟩ := h.opened hopen
    obtain rfl : d = some e := he
    have howns : s.cache.ownsDirectory = e.isTemporary := h.owns
    rw [Cache.close, hstorage, howns]
    cases e with
    | given loc' state husable => simp [CacheDirectory.isTemporary]
    | temporary loc' hfree =>
      have hne : loc' ≠ [] := by
        rintro rfl
        simp [Tree.isFree] at hfree
      simp [CacheDirectory.isTemporary, CacheDirectory.location, find?_eraseBelow hne]

/-- The tree is the one at the start, with the directory; without it once the cache is closed, if that is its own. -/
theorem tree_of_reached (hrecalls : S.Recalls) (hworks : S.Works) {earlier : List Storage.Access}
    (hstate : ∀ e ∈ d, e.state = S.after earlier) (h : Reached (.start S t d) s) :
    s.tree = d.elim t fun e =>
      if e.isTemporary && !(⟨d.isSome, earlier⟩ : Start S).isOpen s.events then t else e.place := by
  -- no step but closing touches the tree, and a second closing finds no storage
  induction h with
  | start => cases d <;> simp [Course.start, Start.isOpen]
  | got _ key ih => simpa [Course.record, Course.look, Event.isClosing] using ih
  | put _ key item ih => simpa [Course.keep, Event.isClosing] using ih
  | hit _ _ ih => simpa [Course.record, Course.look, Event.isClosing] using ih
  | miss _ _ ih => simpa [Course.record, Course.look, Event.isClosing] using ih
  | kept _ key item ih => simpa [Course.record, Course.keep, Event.isClosing] using ih
  | analysed _ _ _ _ ih => simpa [Course.record, Event.isClosing] using ih
  | clear _ ih => simpa [Course.clear, Event.isClosing] using ih
  | @close s hs ih =>
    have hagrees := Agrees.of_reached hrecalls hworks (.start hstate) hs
    have hclosed : (⟨d.isSome, earlier⟩ : Start S).isOpen s.close.events = false := Start.isOpen_cons _ _
    have htree : s.close.tree = (s.cache.close s.tree).2 := rfl
    rw [hclosed, htree, Cache.close]
    cases hopen : (⟨d.isSome, earlier⟩ : Start S).isOpen s.events with
    | false => rw [hagrees.closed hopen, ih, hopen]
    | true =>
      obtain ⟨e, he, as, hstorage, -⟩ := hagrees.opened hopen
      obtain rfl : d = some e := he
      have howns : s.cache.ownsDirectory = e.isTemporary := hagrees.owns
      have hplace : s.tree = e.place := by rw [ih, hopen]; simp
      rw [hstorage, howns, hplace]
      cases e with
      | given loc state husable => rfl
      | temporary loc hfree => exact eraseBelow_put hfree

end Directory

/-! ### Accounts -/

theorem close_idle {c : Cache S} (henabled : c.enabled = false) (hstorage : c.storage = none) (u : Tree) :
    c.close u = (c, u) := by
  obtain ⟨enabled, hits, misses, owns, storage⟩ := c
  obtain rfl : enabled = false := henabled
  obtain rfl : storage = none := hstorage
  rfl

/-- What holds of a cache after whatever was done with it. -/
structure Accounts {t : Tree} (d : Option (CacheDirectory S t)) (b : Start S) (s : Course S) : Prop where
  /-- every lookup since the cache was cleared has been counted -/
  counted : s.cache.hits + s.cache.misses = (sinceClear s.events).countP Event.isLookup
  /-- as a hit if something was to be found, as a miss if not -/
  tally : (s.cache.hits, s.cache.misses) = b.tally s.events
  /-- every lookup of an open cache found what was last put under an equal key, every other one nothing, and functions
  were run on memoised lookups that found nothing only -/
  due : ∀ e before, e :: before <:+ s.events → e.IsDue b before
  /-- and on all of those -/
  runs : Runs b s.events
  /-- but in an open cache not for a key under which a result was put since the cache was cleared -/
  notAgain : ∀ key k item before, .began key :: before <:+ s.events → b.isOpen before = true →
    .put k item ∈ sinceClear before → S.same k key = false
  /-- clearing succeeds -/
  clears : s.cache.clear.1 = .ok ()
  /-- a cache that is closed or was never on finds nothing, keeps nothing and cannot be closed again -/
  idle : b.isOpen s.events = false → s.cache.enabled = false ∧ s.cache.size = 0 ∧
    (∀ key, s.cache.lookup key = (none, { s.cache with misses := s.cache.misses + 1 })) ∧
    (∀ key item, s.cache.insert key item = s.cache) ∧ ∀ u, s.cache.close u = (s.cache, u)
  /-- a directory of the cache's own is there until the cache is closed, one that was handed in stays -/
  tree : s.tree = d.elim t fun e => if e.isTemporary && !b.isOpen s.events then t else e.place
  /-- whatever is in the directory when the cache is closed goes away with it, and nothing else does -/
  closing : ∀ (u : Tree) loc, (s.cache.close u).2.find? loc =
    if b.isOpen s.events ∧ ∃ e ∈ d, e.isTemporary ∧ e.location <+: loc then none else u.find? loc

/-- Whatever a client does with a new cache whose storage does not fail, on a directory of the cache's own or another one
or switched off, the accounts are right; and as long as the cache is open, functions that give results and do not use the
cache have been run for each key at most once since it was cleared. -/
theorem session_accounts (hrecalls : S.Recalls) (hworks : S.Works) {t : Tree} (d : Option (CacheDirectory S t))
    {earlier : List Storage.Access} (hstate : ∀ e ∈ d, e.state = S.after earlier) (client : Client) :
    let s := (client.run (.start S t d)).2
    let b : Start S := ⟨d.isSome, earlier⟩
    Accounts d b s ∧
      (client.IsPlain → b.isOpen s.events = true → (runKeys s.events).Pairwise fun key k => S.same k key = false) := by
  intro s b
  have hreached : Reached (.start S t d) s := .run client .start
  have hstart : Agrees d b (.start S t d) := .start hstate
  have hnew : (Course.start S t d).events = [] := by cases d <;> rfl
  have hagrees : Agrees d b s := .of_reached hrecalls hworks hstart hreached
  refine ⟨⟨?counted, hagrees.counted, isDue_of_reached hrecalls hworks hstart hnew hreached,
    runs_of_reached hrecalls hworks hstart hnew hreached, ?notAgain, ?clears, ?idle,
    tree_of_reached hrecalls hworks hstate hreached, find?_close hagrees⟩, fun hplain hopen => ?once⟩
  case counted =>
    rw [← b.tally_lookups, ← hagrees.counted]
  case notAgain =>
    intro key k item before hrun hopen hput
    exact not_put_of_run hrecalls hworks hstart hnew hreached hrun hopen hput
  case clears => exact hagrees.clears hworks
  case idle =>
    intro hclosed
    have hnone := hagrees.opened?_of_closed hclosed
    refine ⟨hagrees.enabled.trans hclosed, ?_, fun key => ?_, fun key item => ?_, fun u => ?_⟩
    · rw [Cache.size, hagrees.closed hclosed]
    · rw [Cache.lookup, hnone]
    · rw [Cache.insert, hnone]
    · exact close_idle (hagrees.enabled.trans hclosed) (hagrees.closed hclosed) u
  case once =>
    exact (once_run hrecalls hworks hstart client hplain .start (fun _ => hnew ▸ .nil) hopen).different

/-- A memory without an end never fails. -/
theorem works_memory : (Storage.memory none).Works := by
  have hdone {m : (Storage.memory none).State} (hleft : Storage.Memory.left m = none) (a : Storage.Access) :
      ((Storage.memory none).access m a).1 = true ∧ Storage.Memory.left ((Storage.memory none).access m a).2 = none := by
    cases a <;> simp [Storage.access, Storage.memory, Storage.Memory.access, hleft, Except.isOk, Except.toBool]
  have hleft : ∀ as, Storage.Memory.left ((Storage.memory none).after as) = none := by
    intro as
    induction as with
    | nil => rfl
    | cons a as ih => exact (hdone ih a).2
  intro a as hfails
  rw [Storage.Fails, (hdone (hleft as) a).1] at hfails
  cases hfails

/-- A function that gives nothing is called twice. -/
def nothingClient : Client :=
  .call (.text "j") (.done (.ok (.value .null))) fun _ =>
  .call (.text "j") (.done (.ok (.value .null))) fun answer => .done answer

theorem session_accounts_nothingClient : nothingClient.IsPlain ∧
    let s := (nothingClient.run (.start _ .empty (some (.inMemory none)))).2
    s.cache.hits = 1 ∧ s.cache.misses = 1 ∧ runKeys s.events = [.text "j"] ∧
      (runKeys s.events).Pairwise (fun key k => k.sameKey key = false) ∧
      s.tree.find? ["cache"] = some .directory ∧ (s.cache.close s.tree).2.find? ["cache"] = none := by
  have hplain : nothingClient.IsPlain := ⟨⟨_, rfl⟩, fun _ => ⟨⟨_, rfl⟩, fun _ => trivial⟩⟩
  have hstate : ∀ e ∈ some (CacheDirectory.inMemory none), e.state = (Storage.memory none).after [] := by
    rintro _ ⟨⟩
    rfl
  obtain ⟨haccounts, honce⟩ :=
    session_accounts (Storage.recalls_memory none) works_memory _ hstate nothingClient
  refine ⟨hplain, rfl, rfl, rfl, honce hplain rfl, ?_, ?_⟩
  · rw [haccounts.tree]
    rfl
  · rw [haccounts.closing, if_pos ⟨rfl, _, rfl, rfl, List.prefix_rfl⟩]

end Cache

end ScoreGate
