import ScoreGate.Cache.Memory
import ScoreGate.Proofs.Comparing
import ScoreGate.Proofs.Courses

/-!
# Analyses with a cache

Of an analysis only the score is kept, under the counts and the size that it comes from.  So an analysis is the same
with a cache as without one, whatever else the cache is used for in between and however its storage fails, if the
storage recalls what was set and nobody else puts something under the key of a score.

* `Cache.Harmless`: only scores were set under the keys of scores.
* `Cache.Sound`, `Cache.Sound.run`: it stays so, and all analyses were those that are made without a cache.
* `Cache.run_analyses`: the analyses of a client.
* `Storage.recalls_memory`: a storage in memory does what storages are documented to do.
-/

namespace ScoreGate

namespace Cache

variable {S : Storage}

/-! ### Keys of scores -/

/-- The key of a score tells the counts and the size. -/
theorem scoreKey_inj {m n : IssueCounts} {k l : ℕ} : scoreKey m k = scoreKey n l ↔ m = n ∧ k = l := by
  rcases m with ⟨a, b, c⟩
  rcases n with ⟨d, e, f⟩
  simp [scoreKey, and_assoc]

/-- A storage takes the keys of two scores for equal only if they are. -/
def TellsScores (S : Storage) : Prop :=
  ∀ m n k l, S.same (scoreKey m k) (scoreKey n l) = true → m = n ∧ k = l

/-- A key that is not equal to that of a score. -/
def IsForeignKey (S : Storage) (key : Value) : Prop := ∀ n size, S.same key (scoreKey n size) = false

/-- A client that puts nothing under the keys of scores but by analyses. -/
def Client.IsForeign (S : Storage) : Client → Prop
  | .done _ => True
  | .get _ next => ∀ found, (next found).IsForeign S
  | .set key _ next => IsForeignKey S key ∧ next.IsForeign S
  | .call key function next => IsForeignKey S key ∧ function.IsForeign S ∧ ∀ result, (next result).IsForeign S
  | .analyze _ _ next => ∀ answer, (next answer).IsForeign S
  | .clear next => ∀ done, (next done).IsForeign S
  | .close next => next.IsForeign S

/-! ### What is kept under the keys of scores -/

/-- An item that may stand under a key: the score, if the key is equal to that of a score. -/
def Fits (S : Storage) (key : Value) (item : CacheItem) : Prop :=
  ∀ n size, S.same key (scoreKey n size) = true → item = scoreItem n size

theorem IsForeignKey.fits {key : Value} (h : IsForeignKey S key) (item : CacheItem) : Fits S key item := by
  intro n size hsame
  rw [h n size] at hsame
  cases hsame

theorem fits_scoreItem (htells : TellsScores S) (n : IssueCounts) (size : ℕ) :
    Fits S (scoreKey n size) (scoreItem n size) := by
  intro m k hsame
  obtain ⟨rfl, rfl⟩ := htells _ _ _ _ hsame
  rfl

/-- Accesses that set nothing else under the keys of scores. -/
def Harmless (S : Storage) (as : List Storage.Access) : Prop := ∀ key item, .set key item ∈ as → Fits S key item

theorem set_of_mayGive {key : Value} {item : CacheItem} : ∀ {as : List Storage.Access},
    S.MayGive key as (some item) → ∃ k, S.same k key = true ∧ .set k item ∈ as
  | [], h => by cases h
  | .get _ :: as, h => by
    obtain ⟨k, hk, hmem⟩ := set_of_mayGive (show S.MayGive key as (some item) from h)
    exact ⟨k, hk, List.mem_cons_of_mem _ hmem⟩
  | .set l i :: as, h => by
    rw [Storage.MayGive] at h
    have hearlier (h : S.MayGive key as (some item)) : ∃ k, S.same k key = true ∧ .set k item ∈ .set l i :: as := by
      obtain ⟨k, hk, hmem⟩ := set_of_mayGive h
      exact ⟨k, hk, List.mem_cons_of_mem _ hmem⟩
    split_ifs at h with hl
    · rcases h with heq | ⟨-, h⟩
      · exact ⟨l, hl, by simp [Option.some.inj heq]⟩
      · exact hearlier h
    · exact hearlier h
  | .clear :: as, h => by
    obtain heq | ⟨-, h⟩ := h
    · cases heq
    · obtain ⟨k, hk, hmem⟩ := set_of_mayGive h
      exact ⟨k, hk, List.mem_cons_of_mem _ hmem⟩

theorem Harmless.cons {as : List Storage.Access} (h : Harmless S as) {a : Storage.Access}
    (ha : ∀ key item, a = .set key item → Fits S key item) : Harmless S (a :: as) := by
  intro key item hmem
  rcases List.mem_cons.mp hmem with heq | hmem
  · exact ha key item heq.symm
  · exact h key item hmem

/-- A cache whose storage was only ever set to scores under the keys of scores. -/
def Clean (c : Cache S) : Prop :=
  ∀ directory state, c.storage = some (directory, state) → ∃ as, state = S.after as ∧ Harmless S as

theorem Clean.of_storage {c d : Cache S} (h : c.Clean) (hstorage : d.storage = c.storage) : d.Clean := by
  rw [Clean, hstorage]
  exact h

theorem Clean.access {c : Cache S} (h : c.Clean) {directory : Location} {state : S.State}
    (hstorage : c.opened? = some (directory, state)) {a : Storage.Access}
    (ha : ∀ key item, a = .set key item → Fits S key item) :
    ∃ as, state = S.after as ∧ Harmless S as ∧ ∀ d : Cache S,
      d.storage = some (directory, (S.access state a).2) → d.Clean := by
  rw [opened?] at hstorage
  split_ifs at hstorage
  obtain ⟨as, rfl, has⟩ := h directory state hstorage
  refine ⟨as, rfl, has, fun d hd directory' state' hstate => ?_⟩
  rw [hd] at hstate
  cases hstate
  exact ⟨a :: as, rfl, has.cons ha⟩

theorem Clean.lookup_score {c : Cache S} (h : c.Clean) (hrecalls : S.Recalls) {n : IssueCounts} {size : ℕ}
    {item : CacheItem} (hfound : (c.lookup (scoreKey n size)).1 = some item) : item = scoreItem n size := by
  rw [Cache.lookup] at hfound
  rcases hopened : c.opened? with _ | ⟨directory, state⟩
  · simp [hopened] at hfound
  · obtain ⟨as, rfl, has, -⟩ := h.access hopened (a := .clear) (by simp)
    rw [hopened] at hfound
    rcases hget : S.get (scoreKey n size) (S.after as) with ⟨_ | _ | found, state⟩
    · simp [hget] at hfound
    · simp [hget] at hfound
    · simp only [hget, Option.some.injEq] at hfound
      obtain ⟨k, hk, hmem⟩ := set_of_mayGive (hrecalls _ _ _ _ hget)
      rw [← hfound]
      exact has k found hmem n size hk

theorem Clean.lookup {c : Cache S} (h : c.Clean) (key : Value) : (c.lookup key).2.Clean := by
  rw [Cache.lookup]
  rcases hopened : c.opened? with _ | ⟨directory, state⟩
  · exact h.of_storage rfl
  · obtain ⟨as, -, -, hafter⟩ := h.access hopened (a := .get key) (by simp)
    rcases hget : S.get key state with ⟨_ | _ | found, state'⟩
    all_goals
      simp only [hget]
      exact hafter _ (by simp [Storage.access, hget])

theorem Clean.insert {c : Cache S} (h : c.Clean) {key : Value} {item : CacheItem} (hfits : Fits S key item) :
    (c.insert key item).Clean := by
  rw [Cache.insert]
  rcases hopened : c.opened? with _ | ⟨directory, state⟩
  · exact h
  · obtain ⟨as, -, -, hafter⟩ := h.access hopened (a := .set key item) (by rintro _ _ ⟨⟩; exact hfits)
    exact hafter _ rfl

theorem Clean.clear {c : Cache S} (h : c.Clean) : c.clear.2.Clean := by
  have hreset : Clean { c with hits := 0, misses := 0 } := h.of_storage rfl
  rw [Cache.clear]
  rcases hopened : ({ c with hits := 0, misses := 0 } : Cache S).opened? with _ | ⟨directory, state⟩
  · exact hreset
  · obtain ⟨as, -, -, hafter⟩ := hreset.access hopened (a := .clear) (by simp)
    exact hafter _ rfl

theorem Clean.close {c : Cache S} (h : c.Clean) (t : Tree) : (c.close t).1.Clean := by
  rw [Cache.close]
  split
  · exact h.of_storage rfl
  · rintro _ _ ⟨⟩

/-! ### Clients -/

/-- The cache is clean, and every analysis was the one that is made without a cache. -/
structure Sound (s : Course S) : Prop where
  clean : s.cache.Clean
  analysed : ∀ content path answer, .analysed content path answer ∈ s.events →
    answer = .ok (ScoreGate.analyzeText content path)

namespace Sound

variable {s : Course S}

theorem record (h : Sound s) {e : Event} (he : ∀ content path answer, e ≠ .analysed content path answer) :
    Sound (s.record e) := by
  refine ⟨h.clean, fun content path answer hmem => ?_⟩
  rcases List.mem_cons.mp hmem with heq | hmem
  · exact absurd heq.symm (he content path answer)
  · exact h.analysed content path answer hmem

theorem look (h : Sound s) (key : Value) : Sound (s.look key) := ⟨h.clean.lookup key, h.analysed⟩

theorem keep (h : Sound s) {key : Value} {item : CacheItem} (hfits : Fits S key item) : Sound (s.keep key item) :=
  record (s := { s with cache := s.cache.insert key item }) ⟨h.clean.insert hfits, h.analysed⟩ (by simp)

theorem clear (h : Sound s) : Sound s.clear :=
  record (s := { s with cache := s.cache.clear.2 }) ⟨h.clean.clear, h.analysed⟩ (by simp)

theorem close (h : Sound s) : Sound s.close :=
  record (s := ⟨(s.cache.close s.tree).1, (s.cache.close s.tree).2, s.events⟩) ⟨h.clean.close _, h.analysed⟩ (by simp)

theorem memoCall (h : Sound s) {key : Value} {compute : Session S CacheItem}
    (hcompute : ∀ {t : Course S}, Sound t → Sound (compute.run.run t).2 ∧
      ∀ item, (compute.run.run t).1 = .ok item → Fits S key item) :
    Sound ((Cache.memoCall key compute).run.run s).2 := by
  rw [run_memoCall]
  have hlooked := (h.record (e := .called key) (by simp)).look key
  cases (s.cache.lookup key).1 with
  | some item => exact hlooked.record (by simp)
  | none =>
    obtain ⟨hafter, hfits⟩ := hcompute (hlooked.record (e := .began key) (by simp))
    rcases hresult : compute.run.run (((s.record (.called key)).look key).record (.began key)) with ⟨_ | item, t⟩
    all_goals simp only [hresult] at hafter hfits ⊢
    · exact hafter
    · exact (hafter.keep (hfits item rfl)).record (by simp)

theorem scoreCall (h : Sound s) (hrecalls : S.Recalls) (htells : TellsScores S) (n : IssueCounts) (size : ℕ) :
    ((Cache.scoreCall n size).run.run s).1 = .ok (scoreItem n size) ∧ Sound ((Cache.scoreCall n size).run.run s).2 := by
  refine ⟨?_, h.memoCall fun ht => ⟨ht, ?_⟩⟩
  · rw [Cache.scoreCall, run_memoCall]
    cases hfound : (s.cache.lookup (scoreKey n size)).1 with
    | some item => exact congrArg Except.ok (h.clean.lookup_score hrecalls hfound)
    | none => rfl
  · rintro _ ⟨⟩
    exact fits_scoreItem htells n size

/-- An analysis is the one that is made without a cache. -/
theorem analyze (h : Sound s) (hrecalls : S.Recalls) (htells : TellsScores S) (content path : String) :
    let result := (analyzeTextBy Cache.scoreCall content path).run.run s
    result.1 = .ok (ScoreGate.analyzeText content path) ∧ Sound (result.2.record (.analysed content path result.1)) := by
  intro result
  obtain ⟨hscore, hafter⟩ := h.scoreCall hrecalls htells (.of (textIssues path content.toList)) (lines content.toList).length
  have hresult : result = (.ok (ScoreGate.analyzeText content path),
      ((Cache.scoreCall (.of (textIssues path content.toList)) (lines content.toList).length).run.run s).2) := by
    rw [show result = (analyzeTextBy Cache.scoreCall content path).run.run s from rfl, run_analyzeTextBy]
    rcases hcall : (Cache.scoreCall (.of (textIssues path content.toList)) (lines content.toList).length).run.run s with
      ⟨r, t⟩
    rw [hcall] at hscore
    obtain rfl : r = _ := hscore
    rfl
  rw [hresult]
  refine ⟨rfl, hafter.clean, fun content' path' answer hmem => ?_⟩
  rcases List.mem_cons.mp hmem with heq | hmem
  · cases heq
    rfl
  · exact hafter.analysed content' path' answer hmem

/-- An analysis whose call for the score leaves no event is the one that is made without a cache. -/
theorem analyzeText (h : Sound s) (hrecalls : S.Recalls) (content path : String) :
    ((Cache.analyzeText (S := S) content path : Session S FileAnalysis).run.run s).1 =
      .ok (ScoreGate.analyzeText content path) := by
  rw [Cache.analyzeText, analyzeTextBy, run_bind, run_memoised]
  cases hfound : (s.cache.lookup (scoreKey (.of (textIssues path content.toList)) (lines content.toList).length)).1 with
  | some item =>
    obtain rfl := h.clean.lookup_score hrecalls hfound
    rfl
  | none => rfl

/-- Whatever a client does leaves a sound course, if it puts nothing under the keys of scores. -/
theorem run (hrecalls : S.Recalls) (htells : TellsScores S) (client : Client) :
    client.IsForeign S → ∀ {s : Course S}, Sound s → Sound (client.run s).2 := by
  induction client with
  | done result => exact fun _ _ h => h
  | get key next ih => exact fun hforeign s h => ih _ (hforeign _) ((h.look key).record (by simp))
  | set key item next ih => exact fun hforeign s h => ih hforeign.2 (h.keep (hforeign.1.fits item))
  | call key function next ihf ih =>
    intro hforeign s h
    exact ih _ (hforeign.2.2 _) (h.memoCall fun ht => ⟨ihf hforeign.2.1 ht, fun item _ => hforeign.1.fits item⟩)
  | analyze content path next ih =>
    exact fun hforeign s h => ih _ (hforeign _) (h.analyze hrecalls htells content path).2
  | clear next ih => exact fun hforeign s h => ih _ (hforeign _) h.clear
  | close next ih => exact fun hforeign s h => ih hforeign h.close

end Sound

/-- A client of a cache whose storage recalls what was set gets the analyses that are made without a cache, whatever else
it does with the cache and however the storage fails, and so does whoever analyses a text afterwards.  A directory that is
handed in may have been used before. -/
theorem run_analyses (hrecalls : S.Recalls) (htells : TellsScores S) {t : Tree} {d : Option (CacheDirectory S t)}
    {earlier : List Storage.Access} (hstate : ∀ e ∈ d, e.state = S.after earlier) (hearlier : Harmless S earlier)
    {client : Client} (hforeign : client.IsForeign S) :
    let s := (client.run (.start S t d)).2
    (∀ content path answer, .analysed content path answer ∈ s.events →
      answer = .ok (ScoreGate.analyzeText content path)) ∧
    ∀ content path, ((analyzeText (S := S) content path : Session S FileAnalysis).run.run s).1 =
      .ok (ScoreGate.analyzeText content path) := by
  have hstart : Sound (.start S t d) := by
    refine ⟨?clean, ?analysed⟩
    case clean =>
      rcases d with _ | d
      · rintro _ _ ⟨⟩
      · intro directory state hstorage
        refine ⟨earlier, ?_, hearlier⟩
        rw [← hstate d rfl]
        cases d <;> cases hstorage <;> rfl
    case analysed => cases d <;> simp [Course.start]
  have hsound := Sound.run hrecalls htells client hforeign hstart
  exact ⟨hsound.analysed, hsound.analyzeText hrecalls⟩

end Cache

/-! ### Storages in memory -/

namespace Value

variable {x y z : Value}

theorem sameKey_symm (x y : Value) : x.sameKey y = y.sameKey x := by
  have halike : x.alike y = y.alike x := by rw [Bool.eq_iff_iff, alike_iff, alike_iff, eq_comm]
  rw [sameKey, sameKey]
  cases x.storedNumber? <;> cases y.storedNumber? <;> simp only [halike]
  rw [Number.same_symm]

theorem sameKey_trans (h : x.sameKey y = true) (h' : y.sameKey z = true) : x.sameKey z = true := by
  rw [sameKey] at *
  cases hx : x.storedNumber? <;> cases hy : y.storedNumber? <;> cases hz : z.storedNumber? <;>
    simp only [hx, hy, hz, Bool.false_eq_true] at h h' ⊢
  · rw [alike_iff] at *
    exact h.trans h'
  · exact Number.same_trans h h'

/-- Two keys that are the same are the same as the same keys. -/
theorem sameKey_congr (h : x.sameKey y = true) (z : Value) : x.sameKey z = y.sameKey z := by
  rw [Bool.eq_iff_iff]
  exact ⟨sameKey_trans ((sameKey_symm y x).trans h), sameKey_trans h⟩

end Value

namespace Storage

theorem Memory.find?_putEntry (key k : Value) (item : CacheItem) (es : List (Value × CacheItem)) :
    ((putEntry key item es).find? fun e => e.1.sameKey k).map (·.2) =
      if key.sameKey k then some item else (es.find? fun e => e.1.sameKey k).map (·.2) := by
  induction es with
  | nil => cases hk : key.sameKey k <;> simp [putEntry, hk]
  | cons e es ih =>
    rcases e with ⟨l, i⟩
    rw [putEntry]
    by_cases hl : l.sameKey key = true
    · -- the item takes the place of the one under the same key
      have hsame := Value.sameKey_congr hl k
      rw [if_pos hl, List.find?_cons, List.find?_cons]
      cases hk : key.sameKey k <;> simp [hsame, hk]
    · rw [if_neg hl, List.find?_cons, List.find?_cons]
      by_cases hlk : l.sameKey k = true
      · -- the new key is not the one looked for, since the old key would be the same
        have hkey : key.sameKey k = false := by
          rw [Bool.eq_false_iff]
          intro hkey
          exact hl (Value.sameKey_trans hlk ((Value.sameKey_symm k key).trans hkey))
        simp [hlk, hkey]
      · simpa [hlk] using ih

theorem mayGive_find? (lifetime : Option ℕ) (key : Value) : ∀ as : List Access,
    (memory lifetime).MayGive key as (Memory.find? ((memory lifetime).after as) key)
  | [] => rfl
  | a :: as => by
    have ih := mayGive_find? lifetime key as
    generalize hm : (memory lifetime).after as = m at ih
    have hafter : (memory lifetime).after (a :: as) = ((memory lifetime).access m a).2 := by rw [after, hm]
    have hfails : (memory lifetime).Fails a as ↔ ((memory lifetime).access m a).1 = false := by rw [Fails, hm]
    rw [hafter]
    -- an access that fails leaves the entries, any other one does what it is for
    by_cases hdown : Memory.left m = some 0
    · have hkept : (memory lifetime).access m a = (false, m) := by
        have hfailed {α : Type} (result : α) (es : List (Value × CacheItem)) :
            Memory.access m result es = (.error ⟨"disk I/O error"⟩, m) := if_pos hdown
        cases a <;> simp only [access, memory, hfailed] <;> rfl
      rw [hkept] at hfails ⊢
      cases a with
      | get k => exact ih
      | set k item =>
        rw [MayGive]
        split_ifs
        · exact Or.inr ⟨hfails.mpr rfl, ih⟩
        · exact ih
      | clear => exact Or.inr ⟨hfails.mpr rfl, ih⟩
    · cases a with
      | get k =>
        have hsame : ((memory lifetime).access m (.get k)).2 = (⟨Memory.entries m, (Memory.left m).map (· - 1)⟩ : Memory) := by
          simp [access, memory, Memory.access, hdown]
        rw [hsame]
        exact ih
      | set k item =>
        have hput : ((memory lifetime).access m (.set k item)).2 =
            (⟨Memory.putEntry k item (Memory.entries m), (Memory.left m).map (· - 1)⟩ : Memory) := by
          simp [access, memory, Memory.access, hdown]
        have hsame : (memory lifetime).same k key = k.sameKey key := rfl
        rw [hput, Memory.find?, Memory.find?_putEntry, MayGive, hsame]
        split_ifs
        · exact Or.inl rfl
        · exact ih
      | clear =>
        refine Or.inl ?_
        simp [access, memory, Memory.access, hdown, Memory.find?]

/-- A memory gives what was last set under an equal key since it was cleared, as long as it goes on. -/
theorem recalls_memory (lifetime : Option ℕ) : (memory lifetime).Recalls := by
  intro key as found state hget
  have hgiven := mayGive_find? lifetime key as
  generalize (memory lifetime).after as = m at hget hgiven
  have hfound : found = Memory.find? m key := by
    have hget : Memory.access m (Memory.find? m key) (Memory.entries m) = (.ok found, state) := hget
    unfold Memory.access at hget
    split_ifs at hget
    · cases (Prod.mk.inj hget).1
    · exact (Except.ok.inj (Prod.mk.inj hget).1).symm
  rw [hfound]
  exact hgiven

end Storage

namespace Cache

theorem tellsScores_memory (lifetime : Option ℕ) : TellsScores (.memory lifetime) := by
  intro m n k l (hsame : (scoreKey m k).sameKey (scoreKey n l) = true)
  exact scoreKey_inj.mp ((Value.alike_iff _ _).mp hsame)

/-- A text is analysed while its score is missing and while it is kept, in between other things are kept, and the
storage fails from the seventh access on; then the cache is cleared, which fails, and closed. -/
def brokenClient : Client :=
  .analyze "while (true) {}" "a.ts" fun _ =>
  .set (.list [.text "score", .int 1]) (.value .null) <|
  .analyze "while (true) {}" "b.ts" fun _ =>
  .call (.text "score") (.get (.text "a") fun _ => .done (.ok (.value .null))) fun _ =>
  .analyze "while (true) {}" "a.ts" fun _ =>
  .clear fun _ => .close <|
  .analyze "while (true) {}" "a.ts" fun _ => .done (.ok (.value .null))

theorem run_analyses_brokenClient : brokenClient.IsForeign (.memory (some 6)) ∧
    let s := (brokenClient.run (.start _ .empty (some (.inMemory (some 6))))).2
    (s.events.countP fun
      | .analysed .. => true
      | _ => false) = 4 ∧
    (∀ content path answer, .analysed content path answer ∈ s.events →
      answer = .ok (ScoreGate.analyzeText content path)) ∧
    ∀ content path, ((analyzeText (S := .memory (some 6)) content path : Session _ FileAnalysis).run.run s).1 =
      .ok (ScoreGate.analyzeText content path) := by
  have hshort : IsForeignKey (.memory (some 6)) (.list [.text "score", .int 1]) := by
    simp [IsForeignKey, Storage.memory, Value.sameKey, Value.storedNumber?, scoreKey, Value.alike, Value.alikeItems]
  have hname : IsForeignKey (.memory (some 6)) (.text "score") := fun _ _ => rfl
  have hforeign : brokenClient.IsForeign (.memory (some 6)) :=
    fun _ => ⟨hshort, fun _ => ⟨hname, fun _ => trivial, fun _ _ _ _ => trivial⟩⟩
  have hstate : ∀ e ∈ some (CacheDirectory.inMemory (some 6)), e.state = (Storage.memory (some 6)).after [] := by
    rintro _ ⟨⟩
    rfl
  exact ⟨hforeign, rfl, run_analyses (Storage.recalls_memory _) (tellsScores_memory _) hstate
    (by simp [Harmless]) hforeign⟩

end Cache

end ScoreGate
