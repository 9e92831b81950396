import ScoreGate.Value
import ScoreGate.Proofs.Running
import ScoreGate.Snapshot.Document

/-!
# Snapshots as records

A snapshot counts its files and names each of them once.  So the summary of a path is the one that was recorded for it,
whatever the order of the files, and a snapshot comes back from its own document unchanged.

* `Snapshot.check_eq_ok`: what the check of a snapshot comes to.
* `Snapshot.file?_eq_some`: what is found for the path of a file is that file.
* `Snapshot.ofValue_toValue`: the round trip through a document.
* `Value.alike_iff`: values that are written alike are equal, so equality of values is decided.
-/

namespace ScoreGate

/-! ### Equality -/

namespace Value

mutual

theorem alike_iff : ∀ v w : Value, v.alike w = true ↔ v = w
  | .null, w => by cases w <;> simp [alike]
  | .number m, w => by cases w <;> simp [alike]
  | .text s, w => by cases w <;> simp [alike]
  | .list vs, w => by cases w <;> simp [alike, alikeItems_iff vs]
  | .table es, w => by cases w <;> simp [alike, alikeEntries_iff es]
  | .moment m, w => by cases w <;> simp [alike]

theorem alikeItems_iff : ∀ vs ws : List Value, alikeItems vs ws = true ↔ vs = ws
  | [], ws => by cases ws <;> simp [alikeItems]
  | v :: vs, ws => by
    rcases ws with _ | ⟨w, ws⟩
    · simp [alikeItems]
    · simp [alikeItems, alike_iff v w, alikeItems_iff vs ws]

theorem alikeEntries_iff : ∀ es fs : List (String × Value), alikeEntries es fs = true ↔ es = fs
  | [], fs => by cases fs <;> simp [alikeEntries]
  | (k, v) :: es, fs => by
    rcases fs with _ | ⟨⟨l, w⟩, fs⟩
    · simp [alikeEntries]
    · simp [alikeEntries, alike_iff v w, alikeEntries_iff es fs]

end

instance : DecidableEq Value := fun v w => decidable_of_iff _ (alike_iff v w)

end Value

/-! ### Names -/

theorem Value.sameName_self {v : Value} (h : v.isName = true) : v.sameName v = true := by
  cases v with
  | null => rfl
  | text s => simp [Value.sameName]
  | moment m => simp [Value.sameName]
  | list items => simp [Value.isName] at h
  | table entries => simp [Value.isName] at h
  | number n =>
    have hplace : ∀ {p : Place}, p ≠ .undefined → p.le p = true := by
      rintro (_ | _ | q | _) hp <;> simp_all [Place.le]
    rcases n with b | n | (_ | ⟨_ | _⟩ | ⟨b, m, e, hc⟩)
    · simp [Value.sameName, Number.same, Number.le, Number.place, Place.le]
    · simp [Value.sameName, Number.same, Number.le, Number.place, Place.le]
    · rfl
    all_goals
      simp only [Value.sameName, Number.same, Bool.and_self, Number.le]
      exact hplace (by simp [Number.place, Binary64.place])

@[simp] theorem Value.sameName_text (s t : String) : Value.sameName (.text s) (.text t) = (s == t) := rfl

/-! ### The check -/

namespace Snapshot

variable {id : String}

theorem checkPaths_eq_ok : ∀ {files : List FileSummary} {seen : List Value}, checkPaths id seen files = .ok () ↔
    (∀ f ∈ files, f.path.isName = true) ∧ (∀ f ∈ files, ∀ p ∈ seen, f.path.sameName p = false) ∧
      files.Pairwise fun f g => g.path.sameName f.path = false
  | [], _ => by simp [checkPaths]
  | f :: files, seen => by
    rw [checkPaths]
    split_ifs with hname hseen
    · simp only [false_iff]
      intro h
      simp [h.1 f (by simp)] at hname
    · simp only [false_iff]
      rintro ⟨-, h, -⟩
      obtain ⟨p, hp, hs⟩ := List.any_eq_true.mp hseen
      simp [h f (by simp) p hp] at hs
    · -- what comes first counts as seen for all that comes after it
      have hname' : f.path.isName = true := by simpa using hname
      have hseen' : ∀ p ∈ seen, f.path.sameName p = false := by simpa using hseen
      rw [checkPaths_eq_ok]
      constructor
      · rintro ⟨h1, h2, h3⟩
        refine ⟨?_, ?_, List.pairwise_cons.mpr ⟨fun g hg => h2 g hg f.path (by simp), h3⟩⟩
        · simpa [hname'] using h1
        · intro g hg p hp
          rcases List.mem_cons.mp hg with rfl | hg
          · exact hseen' p hp
          · exact h2 g hg p (List.mem_cons_of_mem _ hp)
      · rintro ⟨h1, h2, h3⟩
        obtain ⟨h4, h5⟩ := List.pairwise_cons.mp h3
        refine ⟨fun g hg => h1 g (List.mem_cons_of_mem _ hg), ?_, h5⟩
        intro g hg p hp
        rcases List.mem_cons.mp hp with rfl | hp
        · exact h4 g hg
        · exact h2 g (List.mem_cons_of_mem _ hg) p hp

theorem check_eq_ok {s t : Snapshot} : s.check = .ok t ↔ t = s ∧ s.metrics.totalFiles = s.files.length ∧
    (∀ f ∈ s.files, f.path.isName = true) ∧ s.files.Pairwise fun f g => g.path.sameName f.path = false := by
  rw [check]
  by_cases hcount : s.metrics.totalFiles = s.files.length
  · simp only [hcount, ne_eq, not_true_eq_false, if_false, bind_eq_ok, pure_eq_ok, Except.ok.injEq,
      @checkPaths_eq_ok s.id s.files [], List.not_mem_nil, false_implies, implies_true, true_and,
      @eq_comm _ t]
    constructor
    · rintro ⟨⟨⟩, h, rfl⟩
      exact ⟨rfl, h⟩
    · rintro ⟨rfl, h⟩
      exact ⟨(), h, rfl⟩
  · simp only [ne_eq, hcount, not_false_eq_true, if_true, false_and, and_false, iff_false]
    exact fun h => by cases h

theorem check_of_same {s t : Snapshot} (h : t.check = .ok t) (hfiles : s.files = t.files)
    (hmetrics : s.metrics = t.metrics) : s.check = .ok s := by
  obtain ⟨-, hrest⟩ := check_eq_ok.mp h
  rw [← hfiles, ← hmetrics] at hrest
  exact check_eq_ok.mpr ⟨rfl, hrest⟩

theorem path_injective {s : Snapshot} (h : s.check = .ok s) {f g : FileSummary} (hf : f ∈ s.files) (hg : g ∈ s.files)
    (hpath : f.path = g.path) : f = g := by
  obtain ⟨-, -, hname, hpair⟩ := check_eq_ok.mp h
  have hnodup : (s.files.map (·.path)).Nodup := by
    refine List.pairwise_map.mpr (hpair.imp_of_mem ?_)
    intro f g hf hg hfg he
    have := Value.sameName_self (hname g hg)
    rw [he] at hfg
    simp [hfg] at this
  exact List.inj_on_of_nodup_map hnodup hf hg hpath

theorem file?_eq_some {s : Snapshot} (h : s.check = .ok s) (htext : ∀ f ∈ s.files, ∃ p, f.path = .text p)
    {g : FileSummary} (hg : g ∈ s.files) : s.file? g.path = some g := by
  obtain ⟨p, hp⟩ := htext g hg
  rw [file?]
  rcases hfind : s.files.find? fun f => f.path.sameName g.path with _ | f
  · have := List.find?_eq_none.mp hfind g hg
    simp [hp] at this
  · have hf := List.mem_of_find?_eq_some hfind
    obtain ⟨q, hq⟩ := htext f hf
    have hsame : f.path.sameName g.path = true := by simpa using List.find?_some hfind
    rw [hp, hq, Value.sameName_text, beq_iff_eq] at hsame
    rw [hfind, path_injective h hf hg (by rw [hp, hq, hsame])]

end Snapshot

/-! ### Documents -/

section Documents

@[simp] theorem Percent.ofValue_value (name : String) (p : Percent) : Percent.ofValue name (.number p.value) = .ok p := by
  simp only [Percent.ofValue, Value.toNumber, ok_bind, Percent.check]
  exact dif_pos p.within

@[simp] theorem Value.toInt_int (n : ℤ) : (Value.int n).toInt = .ok n := rfl

@[simp] theorem Value.toReal_real (x : Binary64) : (Value.real x).toReal = .ok x := rfl

/-- A file comes back from its document. -/
theorem FileSummary.ofValue_toValue (f : FileSummary) : FileSummary.ofValue f.toValue = .ok f := by
  have hcount : ∀ (path : Value) (name : String) (n : ℕ), countOf path name n = .ok n := by
    intro path name n
    rw [countOf, if_neg (by omega), Int.toNat_natCast]
  simp [FileSummary.ofValue, FileSummary.toValue, Breakdown.toValue, Breakdown.ofValues, Value.field, Value.member?,
    Value.memberOr, Value.lookup, Value.orEmptyTable, Value.isTrue, Except.map, hcount]

theorem Metrics.ofValue_toValue (m : Metrics) : Metrics.ofValue m.toValue = .ok m := by
  simp [Metrics.ofValue, Metrics.toValue, Value.field, Value.lookup]

theorem Provenance.ofValue_toValue (p : Provenance) : Provenance.ofValue p.toValue = .ok p := by
  simp [Provenance.ofValue, Provenance.toValue, Value.memberOr, Value.member?, Value.lookup, Except.map]

/-- A snapshot comes back from its document, checked again. -/
theorem Snapshot.ofValue_toValue (s : Snapshot) : Snapshot.ofValue s.toValue = s.check := by
  have hfiles : (s.files.map FileSummary.toValue).mapM FileSummary.ofValue = .ok s.files := by
    rw [List.mapM_map]
    exact (mapM_eq_ok (g := fun f => f) fun f _ => f.ofValue_toValue).trans (by rw [List.map_id'])
  have htrue : Value.orEmptyTable (some s.environment.toValue) = s.environment.toValue := rfl
  simp only [Snapshot.ofValue, Snapshot.toValue, Value.field, Value.member?, Value.memberOr, Value.lookup, String.reduceEq,
    if_true, if_false, ok_bind, Value.display, Value.toInt_int, Except.map, Option.getD, Value.elements, hfiles, htrue,
    Metrics.ofValue_toValue, Provenance.ofValue_toValue]

end Documents

end ScoreGate
