import ScoreGate.Discovery
import ScoreGate.Proofs.Running

/-!
# What patterns match

The texts that a pattern describes are given by a relation, part by part, and so are the files that it matches: by their
last components, by their whole path, or by their name alone.  The tests of the patterns decide both relations.

* `Glob.Describes`, with an equation for each part, and `Glob.accepts_iff`: the texts that the parts of a pattern describe.
* `Glob.Matches`, `Path.skippedBy_eq`: the files below a root that a pattern matches.
* `skips_texts`: the first pattern of a list that has no components or that matches decides about a file.
* `excludedBy_texts`: a list of patterns with components excludes a file that one of them matches, and no other.
-/

namespace ScoreGate

namespace Glob

/-! ### Texts -/

/-- The texts that the parts of a pattern describe. -/
inductive Describes : List GlobPart → List Char → Prop
  | nil : Describes [] []
  | anything {ps cs} (before : List Char) (h : Describes ps cs) : Describes (.anything :: ps) (before ++ cs)
  | one {ps cs} (c : Char) (h : Describes ps cs) : Describes (.one :: ps) (c :: cs)
  | literal {ps cs} (c : Char) (h : Describes ps cs) : Describes (.literal c :: ps) (c :: cs)
  | inSet {ps cs c negated ranges} (hc : (∃ r ∈ ranges, r.1 ≤ c ∧ c ≤ r.2) ↔ negated = false) (h : Describes ps cs) :
      Describes (.inSet negated ranges :: ps) (c :: cs)

theorem someEnd_iff {test : List Char → Bool} : ∀ {cs : List Char},
    someEnd test cs = true ↔ ∃ before after, cs = before ++ after ∧ test after = true
  | [] => by simp [someEnd]
  | c :: cs => by
    rw [someEnd, Bool.or_eq_true, someEnd_iff]
    constructor
    · rintro (h | ⟨before, after, rfl, h⟩)
      · exact ⟨[], c :: cs, rfl, h⟩
      · exact ⟨c :: before, after, rfl, h⟩
    · rintro ⟨_ | ⟨b, before⟩, after, heq, h⟩
      · rw [List.nil_append] at heq
        exact .inl (heq ▸ h)
      · rw [List.cons_append, List.cons.injEq] at heq
        exact .inr ⟨before, after, heq.2, h⟩

/-- A character is taken by a set if it lies in one of the ranges, or if it lies in none of those of a negated set. -/
theorem inRanges_iff {ranges : List (Char × Char)} {negated : Bool} {c : Char} :
    (ranges.any (fun r => r.1 ≤ c && c ≤ r.2) != negated) = true ↔
      ((∃ r ∈ ranges, r.1 ≤ c ∧ c ≤ r.2) ↔ negated = false) := by
  have hany : ranges.any (fun r => r.1 ≤ c && c ≤ r.2) = true ↔ ∃ r ∈ ranges, r.1 ≤ c ∧ c ≤ r.2 := by
    simp only [List.any_eq_true, Bool.and_eq_true, decide_eq_true_eq]
  rw [← hany]
  cases ranges.any (fun r => r.1 ≤ c && c ≤ r.2) <;> cases negated <;> simp

section Describes

variable {ps : List GlobPart} {a c : Char} {cs : List Char} {negated : Bool} {ranges : List (Char × Char)}

theorem describes_nil : Describes [] cs ↔ cs = [] := by
  constructor
  · rintro ⟨⟩
    rfl
  · rintro rfl
    exact .nil

theorem describes_anything : Describes (.anything :: ps) cs ↔ ∃ before after, cs = before ++ after ∧ Describes ps after := by
  constructor
  · rintro (_ | ⟨before, h⟩)
    exact ⟨before, _, rfl, h⟩
  · rintro ⟨before, after, rfl, h⟩
    exact .anything before h

theorem describes_one : Describes (.one :: ps) (c :: cs) ↔ Describes ps cs := by
  constructor
  · intro h
    cases h with
    | one _ h => exact h
  · exact .one c

theorem describes_literal : Describes (.literal a :: ps) (c :: cs) ↔ c = a ∧ Describes ps cs := by
  constructor
  · intro h
    cases h with
    | literal _ h => exact ⟨rfl, h⟩
  · rintro ⟨rfl, h⟩
    exact .literal c h

theorem describes_inSet : Describes (.inSet negated ranges :: ps) (c :: cs) ↔
    ((∃ r ∈ ranges, r.1 ≤ c ∧ c ≤ r.2) ↔ negated = false) ∧ Describes ps cs := by
  constructor
  · intro h
    cases h with
    | inSet hc h => exact ⟨hc, h⟩
  · rintro ⟨hc, h⟩
    exact .inSet hc h

/-- Only parts that take nothing describe the empty text. -/
theorem not_describes_nil {p : GlobPart} (hp : p ≠ .anything) : ¬Describes (p :: ps) [] := by
  intro h
  generalize htext : ([] : List Char) = text at h
  cases h with
  | anything => exact hp rfl
  | one | literal | inSet => cases htext

end Describes

/-- A test of a whole text finds out whether the parts describe it. -/
theorem accepts_iff {ps : List GlobPart} {cs : List Char} : accepts ps cs = true ↔ Describes ps cs := by
  induction ps generalizing cs with
  | nil => rw [accepts, List.isEmpty_iff, describes_nil]
  | cons p ps ih =>
    cases p with
    | anything =>
      rw [accepts, someEnd_iff, describes_anything]
      simp only [ih]
    | one =>
      cases cs with
      | nil => simp [accepts, not_describes_nil]
      | cons c cs => rw [accepts, ih, describes_one]
    | literal a =>
      cases cs with
      | nil => simp [accepts, not_describes_nil]
      | cons c cs => rw [accepts, Bool.and_eq_true, beq_iff_eq, ih, describes_literal]
    | inSet negated ranges =>
      cases cs with
      | nil => simp [accepts, not_describes_nil]
      | cons c cs => rw [accepts, Bool.and_eq_true, inRanges_iff, ih, describes_inSet]

theorem fits_iff {pattern text : String} : fits pattern text = true ↔ Describes (parse pattern) text.toList := by
  rw [fits_eq_accepts, accepts_iff]

/-! ### Files -/

variable {pattern : String} {names qs : List String}

/-- The last of some names are what some patterns describe, one by one. -/
def DescribesEnd (qs names : List String) : Prop :=
  ∃ before after, names = before ++ after ∧ List.Forall₂ (fun q name => Describes (parse q) name.toList) qs after

/-- The files below a root, given by the names that lead to them, that a pattern matches. -/
inductive Matches (pattern : String) (names : List String) : Prop
  | components (hroot : (Path.ofText pattern).root = "") (h : DescribesEnd (Path.ofText pattern).parts names)
  | path (h : Describes (parse pattern) (Path.here.join names).text.toList)
  | name (h : Describes (parse pattern) (names.getLastD "").toList)

/-- Patterns and names are compared from the right, and there have to be as many names as patterns. -/
theorem describesEnd_iff : DescribesEnd qs names ↔
    qs.length ≤ names.length ∧ ((qs.reverse.zip names.reverse).all fun e => fits e.1 e.2) = true := by
  -- the names before those that are compared make no difference
  have hlast : ∀ {before after : List String}, names = before ++ after → qs.length = after.length →
      (((qs.reverse.zip names.reverse).all fun e => fits e.1 e.2) = true ↔
        List.Forall₂ (fun q name => Describes (parse q) name.toList) qs after) := by
    rintro before after rfl hlen
    have hzip : qs.reverse.zip (before ++ after).reverse = (qs.zip after).reverse := by
      rw [List.reverse_append, ← List.append_nil qs.reverse, List.zip_append (by simpa using hlen), List.zip_nil_left,
        List.append_nil, List.zip_eq_zipWith, List.zip_eq_zipWith, List.reverse_zipWith hlen]
    rw [hzip, List.all_reverse, List.all_eq_true, List.forall₂_iff_zip]
    simp only [fits_iff, Prod.forall, hlen, true_and]
  constructor
  · rintro ⟨before, after, hnames, h⟩
    refine ⟨?_, (hlast hnames h.length_eq).mpr h⟩
    rw [hnames, List.length_append, h.length_eq]
    omega
  · rintro ⟨hle, h⟩
    have hnames := (List.take_append_drop (names.length - qs.length) names).symm
    refine ⟨_, _, hnames, (hlast hnames ?_).mp h⟩
    rw [List.length_drop]
    omega

instance (qs names : List String) : Decidable (DescribesEnd qs names) := decidable_of_iff' _ describesEnd_iff

theorem matches_iff : Matches pattern names ↔
    ((Path.ofText pattern).root = "" ∧ DescribesEnd (Path.ofText pattern).parts names) ∨
      fits pattern (Path.here.join names).text = true ∨ fits pattern (names.getLastD "") = true := by
  rw [fits_iff, fits_iff]
  constructor
  · rintro (⟨hroot, h⟩ | h | h)
    · exact .inl ⟨hroot, h⟩
    · exact .inr (.inl h)
    · exact .inr (.inr h)
  · rintro (⟨hroot, h⟩ | h | h)
    · exact .components hroot h
    · exact .path h
    · exact .name h

instance (pattern : String) (names : List String) : Decidable (Matches pattern names) := decidable_of_iff' _ matches_iff

end Glob

namespace Path

variable {pattern : String} {names : List String}

/-- A pattern with components says of every file below a root whether it ends in what the pattern describes. -/
theorem fits_below (h : (ofText pattern).steps ≠ []) : fits ⟨"", names⟩ pattern =
    .ok (decide ((ofText pattern).root = "" ∧ Glob.DescribesEnd (ofText pattern).parts names)) := by
  rw [fits, if_neg (by simpa using h)]
  by_cases hroot : (ofText pattern).root = ""
  · have hsteps : (ofText pattern).steps = (ofText pattern).parts := if_pos hroot
    have hnames : (⟨"", names⟩ : Path).steps = names := if_pos rfl
    simp only [hroot, hsteps, hnames, Glob.describesEnd_iff, ne_eq, not_true_eq_false, decide_false, Bool.false_and,
      Bool.false_eq_true, if_false, decide_true, Bool.true_and, true_and, decide_eq_true_eq, gt_iff_lt]
    split_ifs with hlen
    · rw [decide_eq_false (by omega)]
    · simp [Nat.not_lt.mp hlen]
  · simp [hroot]

/-- A pattern with components finds out which files below a root it matches. -/
theorem skippedBy_eq (h : (ofText pattern).steps ≠ []) :
    skippedBy ⟨"", names⟩ pattern = .ok (decide (Glob.Matches pattern names)) := by
  rw [skippedBy, fits_below h, ok_bind]
  have hiff := @Glob.matches_iff pattern names
  by_cases hend : (ofText pattern).root = "" ∧ Glob.DescribesEnd (ofText pattern).parts names
  · simp [hend, hiff]
  · simp [hend, hiff, Path.here, Path.join, Path.name]

end Path

/-! ### Lists of patterns -/

/-- What a list of patterns comes to for the file of some names: its first pattern that has no components or that matches
decides, and without one the file stays. -/
def firstAnswer (names : List String) (patterns : List String) : Except Fault Bool :=
  match patterns.find? fun q => (Path.ofText q).steps = [] ∨ Glob.Matches q names with
  | none => .ok false
  | some q => if (Path.ofText q).steps = [] then .error (.badValue .emptyPattern) else .ok true

theorem Path.skippedBy_blank {p : Path} {pattern : String} (h : (ofText pattern).steps = []) :
    p.skippedBy pattern = .error (.badValue .emptyPattern) := by
  rw [skippedBy, Path.fits, if_pos (by simpa using h)]
  rfl

theorem firstAnswer_cons (names : List String) (q : String) (patterns : List String) :
    firstAnswer names (q :: patterns) =
      if (Path.ofText q).steps = [] then .error (.badValue .emptyPattern)
      else if Glob.Matches q names then .ok true
      else firstAnswer names patterns := by
  rw [firstAnswer, List.find?_cons]
  by_cases hq : (Path.ofText q).steps = []
  · simp [hq]
  · by_cases hmatch : Glob.Matches q names
    · simp [hq, hmatch]
    · simp [hq, hmatch, firstAnswer]

theorem skips_texts (names patterns : List String) :
    skips (Path.here.join names) (patterns.map .text) = firstAnswer names patterns := by
  induction patterns with
  | nil => rfl
  | cons q patterns ih =>
    rw [List.map_cons, skips, patternText, ok_bind, ih, firstAnswer_cons]
    split_ifs with hq hmatch
    · rw [Path.skippedBy_blank hq, error_bind]
    · rw [Path.join, Path.here, List.nil_append, Path.skippedBy_eq hq, ok_bind, decide_eq_true hmatch, if_pos rfl]
      rfl
    · rw [Path.join, Path.here, List.nil_append, Path.skippedBy_eq hq, ok_bind, decide_eq_false hmatch, if_neg (by simp)]

/-- Patterns with components exclude a file that one of them matches, and no other. -/
theorem firstAnswer_eq {patterns : List String} (h : ∀ p ∈ patterns, (Path.ofText p).steps ≠ []) (names : List String) :
    firstAnswer names patterns = .ok (decide (∃ p ∈ patterns, Glob.Matches p names)) := by
  induction patterns with
  | nil => simp [firstAnswer]
  | cons p patterns ih =>
    rw [firstAnswer_cons, if_neg (h p (by simp)), ih fun q hq => h q (List.mem_cons_of_mem p hq)]
    by_cases hp : Glob.Matches p names
    · simp [hp]
    · simp [hp]

theorem excludedBy_texts {patterns : List String} (h : ∀ p ∈ patterns, (Path.ofText p).steps ≠ []) (names : List String) :
    excludedBy (.list (patterns.map .text)) names = .ok (decide (∃ p ∈ patterns, Glob.Matches p names)) := by
  rw [excludedBy, Value.elements, ok_bind, ← firstAnswer_eq h]
  exact skips_texts names patterns

end ScoreGate
