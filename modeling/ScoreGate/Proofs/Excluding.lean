import ScoreGate.Proofs.Patterns
import ScoreGate.Settings

/-!
# Patterns as a disjunction

A list of patterns is meant as a disjunction: a file is excluded if one of the patterns excludes it, in whatever order they
stand, and further patterns exclude further files.  A pattern without components, such as the empty text or a single dot,
is taken by the settings and spoils this: it is a fault where it is reached, and whether it is reached depends on the
patterns before it and on the file.

* `Excluding.Disjunctive`: lists of patterns that are a disjunction about a file.
* `Excluding.disjunctive_of_components`, `Excluding.components_of_disjunctive`: they are those whose patterns all have
  components.
* `skips_disjunctive_iff`: every list is taken by the settings, the pattern that decides, and when it is a disjunction.
-/

namespace ScoreGate

namespace Excluding

variable {names patterns : List String}

/-- Patterns exclude the file of some names or let it stay, as a disjunction. -/
structure Disjunctive (names patterns : List String) : Prop where
  answers : ∃ excluded, skips (Path.here.join names) (patterns.map .text) = .ok excluded
  /-- a file is excluded by some patterns if one of them alone excludes it -/
  any : skips (Path.here.join names) (patterns.map .text) = .ok true ↔
    ∃ q ∈ patterns, skips (Path.here.join names) [.text q] = .ok true
  /-- the order of the patterns makes no difference -/
  perm : ∀ others, patterns.Perm others →
    skips (Path.here.join names) (others.map .text) = skips (Path.here.join names) (patterns.map .text)
  /-- further patterns do not bring a file back -/
  grows : ∀ more, patterns ⊆ more → skips (Path.here.join names) (patterns.map .text) = .ok true →
    skips (Path.here.join names) (more.map .text) ≠ .ok false

/-! ### The pattern that decides -/

/-- A file that a list of patterns lets stay is matched by none of them, and all of them have components. -/
theorem firstAnswer_eq_false : firstAnswer names patterns = .ok false ↔
    ∀ q ∈ patterns, (Path.ofText q).steps ≠ [] ∧ ¬ Glob.Matches q names := by
  induction patterns with
  | nil => simp [firstAnswer]
  | cons q patterns ih =>
    rw [firstAnswer_cons, List.forall_mem_cons, ← ih]
    split_ifs with hq hmatch
    · simp [hq]
    · simp [hmatch]
    · simp [hq, hmatch]

theorem exists_of_firstAnswer_eq_true (h : firstAnswer names patterns = .ok true) :
    ∃ q ∈ patterns, (Path.ofText q).steps ≠ [] ∧ Glob.Matches q names := by
  induction patterns with
  | nil => simp [firstAnswer] at h
  | cons q patterns ih =>
    rw [firstAnswer_cons] at h
    split_ifs at h with hq hmatch
    · exact ⟨q, by simp, hq, hmatch⟩
    · obtain ⟨p, hp, hcomponents⟩ := ih h
      exact ⟨p, List.mem_cons_of_mem q hp, hcomponents⟩

/-- Further patterns never turn an exclusion into its opposite. -/
theorem firstAnswer_grows {more : List String} (hmore : patterns ⊆ more) (h : firstAnswer names patterns = .ok true) :
    firstAnswer names more ≠ .ok false := by
  intro hfalse
  obtain ⟨q, hq, -, hmatch⟩ := exists_of_firstAnswer_eq_true h
  exact (firstAnswer_eq_false.mp hfalse q (hmore hq)).2 hmatch

/-! ### Lists that are a disjunction -/

theorem disjunctive_of_components (h : ∀ q ∈ patterns, (Path.ofText q).steps ≠ []) : Disjunctive names patterns := by
  have hsingle : ∀ q ∈ patterns, (skips (Path.here.join names) [.text q] = .ok true ↔ Glob.Matches q names) := by
    intro q hq
    have hone : firstAnswer names [q] = _ := firstAnswer_eq (by simpa using h q hq) names
    rw [← skips_texts, List.map_singleton] at hone
    rw [hone]
    simp
  constructor
  · exact ⟨_, (skips_texts names patterns).trans (firstAnswer_eq h names)⟩
  · rw [skips_texts, firstAnswer_eq h, Except.ok.injEq, decide_eq_true_eq]
    exact exists_congr fun q => and_congr_right fun hq => (hsingle q hq).symm
  · intro others hperm
    have hothers : ∀ q ∈ others, (Path.ofText q).steps ≠ [] := fun q hq => h q (hperm.mem_iff.mpr hq)
    rw [skips_texts, skips_texts, firstAnswer_eq h, firstAnswer_eq hothers]
    simp only [hperm.mem_iff]
  · intro more hmore
    rw [skips_texts, skips_texts]
    exact firstAnswer_grows hmore

/-- A pattern without components can be put first, where it is a fault. -/
theorem components_of_disjunctive (h : Disjunctive names patterns) : ∀ q ∈ patterns, (Path.ofText q).steps ≠ [] := by
  intro q hq hblank
  obtain ⟨excluded, hanswer⟩ := h.answers
  have hfirst := h.perm (q :: patterns.erase q) (List.perm_cons_erase hq)
  rw [hanswer, skips_texts, firstAnswer_cons, if_pos hblank] at hfirst
  cases hfirst

end Excluding

/-- Every list of patterns is taken by the settings.  About a file its first pattern that has no components or that matches
decides; further patterns never turn an exclusion into its opposite, and the list is a disjunction exactly if all its
patterns have components. -/
theorem skips_disjunctive_iff (names patterns : List String) :
    (∃ s, Settings.ofEntries [("exclude_patterns", Settings.texts patterns)] (some .default) = .ok s ∧
        s.excludePatterns = Settings.texts patterns) ∧
      skips (Path.here.join names) (patterns.map .text) = firstAnswer names patterns ∧
      (Excluding.Disjunctive names patterns ↔ ∀ q ∈ patterns, (Path.ofText q).steps ≠ []) :=
  ⟨⟨_, rfl, rfl⟩, skips_texts names patterns, Excluding.components_of_disjunctive, Excluding.disjunctive_of_components⟩

example : skips (.ofText "src/a.ts") [.text "", .text "*.ts"] = .error (.badValue .emptyPattern) ∧
    skips (.ofText "src/a.ts") [.text "*.ts", .text ""] = .ok true := by
  decide +kernel

end ScoreGate
