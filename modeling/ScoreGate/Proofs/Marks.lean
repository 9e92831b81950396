import ScoreGate.Analysis
import ScoreGate.Proofs.Spelling

/-!
# What the rules see of a path

Of the path of a text the rules want to know two things: whether it is the path of a component file, and whether it is
that of a file for hooks.  Both are found by a word anywhere in the path.  The words hold no slash, so a continued path
shows what its beginning shows and what the names behind it show, and nothing else.

* `Marks`, `marksOf`: what is seen of a path; `marksOf_join`: what is seen of a continued one.
* `issuesAs`: the issues of a text, from what is seen of its path.
* `issuesAs_sublist`: a path can add the issues of component files and take away those of hooks.
-/

namespace ScoreGate

/-! ### Words in joined texts -/

section Words

variable {sep : Char} {needle : List Char}

theorem isPrefixOf_append_sep (hsep : sep ∉ needle) (xs ys : List Char) :
    needle.isPrefixOf (xs ++ sep :: ys) = needle.isPrefixOf xs := by
  induction needle generalizing xs with
  | nil => simp
  | cons n needle ih =>
    rw [List.mem_cons, not_or] at hsep
    cases xs with
    | nil => simp [List.isPrefixOf, Ne.symm hsep.1]
    | cons x xs => rw [List.cons_append, List.isPrefixOf, List.isPrefixOf, ih hsep.2]

/-- A word that does not hold the separator stands on one side of it. -/
theorem occursIn_append_sep (hne : needle ≠ []) (hsep : sep ∉ needle) (xs ys : List Char) :
    occursIn needle (xs ++ sep :: ys) = (occursIn needle xs || occursIn needle ys) := by
  induction xs with
  | nil =>
    have hstart : needle.isPrefixOf (sep :: ys) = needle.isPrefixOf [] := isPrefixOf_append_sep hsep [] ys
    have hnone : needle.isPrefixOf [] = false := by
      cases needle with
      | nil => exact absurd rfl hne
      | cons => rfl
    rw [List.nil_append, occursIn.eq_2, hstart, hnone, occursIn.eq_1, List.isEmpty_eq_false_iff.mpr hne]
  | cons x xs ih =>
    have hstart : needle.isPrefixOf (x :: xs ++ sep :: ys) = needle.isPrefixOf (x :: xs) :=
      isPrefixOf_append_sep hsep (x :: xs) ys
    rw [List.cons_append, occursIn.eq_2, ← List.cons_append, hstart, ih, occursIn.eq_2, Bool.or_assoc]

end Words

/-! ### Marks -/

/-- What the rules see of a path. -/
structure Marks where
  /-- whether it is the path of a component file -/
  component : Bool
  /-- whether it is the path of a file for hooks -/
  hooks : Bool
  deriving DecidableEq

/-- What is seen of one of two paths. -/
def Marks.or (m n : Marks) : Marks := ⟨m.component || n.component, m.hooks || n.hooks⟩

def marksOf (path : String) : Marks := ⟨isComponentFile path, isHookFile path⟩

/-- What is seen of two paths with a slash between them. -/
theorem marksOf_slash (a b : String) : marksOf (a ++ "/" ++ b) = (marksOf a).or (marksOf b) := by
  have hslash : (a ++ "/" ++ b).toList = a.toList ++ '/' :: b.toList := by simp
  have hfold : foldCase '/' = '/' := by decide
  rw [marksOf, isComponentFile, isHookFile, hslash, List.map_append, List.map_cons, hfold,
    occursIn_append_sep (by decide) (by decide), occursIn_append_sep (by decide) (by decide),
    occursIn_append_sep (by decide) (by decide)]
  simp only [marksOf, Marks.or, isComponentFile, isHookFile, Bool.or_assoc, Bool.or_left_comm]

theorem marksOf_join {p : Path} {names : List String} (hroot : Path.IsRoot p.root) (hnames : names ≠ []) :
    marksOf (p.join names).text = (marksOf p.text).or (marksOf (Path.here.join names).text) := by
  have hjoined : (Path.here.join names).text = joinText "/" names := by
    rw [Path.text_join hnames]
    exact String.empty_append
  rw [Path.text_join hnames, Path.opening, hjoined]
  split_ifs with hparts
  · -- nothing is seen of a root or of a single dot
    have hnothing : marksOf p.text = ⟨false, false⟩ := by
      obtain ⟨root, parts⟩ := p
      obtain rfl : parts = [] := hparts
      rcases hroot with hroot | hroot | hroot
      all_goals
        obtain rfl : root = _ := hroot
        decide
    have hempty : marksOf "" = ⟨false, false⟩ := by decide
    rw [hnothing]
    rcases hroot with hroot | hroot | hroot
    · rw [hroot, String.empty_append]
      rfl
    · rw [hroot, ← String.empty_append (s := "/"), marksOf_slash, hempty]
    · rw [hroot, show "//" = "/" ++ "/" from rfl, marksOf_slash]
      rfl
  · exact marksOf_slash p.text _

/-! ### Issues -/

/-- The issues of a text under a path of which this is seen. -/
def issuesAs (m : Marks) (cs : List Char) : List Issue :=
  issuesOfLines m.component 0 (lines cs) ++
    (largeFileIssues (lines cs).length ++ importIssues (countImports (lines cs)) ++
      if m.component then componentIssues (countComponents cs) ++ hookIssues (!m.hooks && callsHook cs) else [])

/-- Nothing else of a path matters. -/
theorem textIssues_eq_issuesAs (path : String) (cs : List Char) : textIssues path cs = issuesAs (marksOf path) cs := rfl

theorem rulesFor_sublist {a b : Bool} (h : a ≤ b) (line : List Char) : (rulesFor a line).Sublist (rulesFor b line) := by
  rw [rulesFor, rulesFor]
  split_ifs
  · exact List.Sublist.refl _
  · refine List.monotone_filter_right _ fun r hr => ?_
    rw [Bool.and_eq_true, Bool.or_eq_true] at hr ⊢
    exact ⟨hr.1.imp_left h, hr.2⟩

theorem issuesOfLines_sublist {a b : Bool} (h : a ≤ b) : ∀ (before : ℕ) (ls : List (List Char)),
    (issuesOfLines a before ls).Sublist (issuesOfLines b before ls)
  | _, [] => List.Sublist.refl _
  | before, l :: ls => ((rulesFor_sublist h l).map _).append (issuesOfLines_sublist h (before + 1) ls)

/-- A path that is seen to be one of a component file adds issues, and one that is seen to be one for hooks takes away. -/
theorem issuesAs_sublist {m n : Marks} (hcomponent : m.component ≤ n.component) (hhooks : n.hooks ≤ m.hooks)
    (cs : List Char) : (issuesAs m cs).Sublist (issuesAs n cs) := by
  have hcalled : ∀ {a b : Bool}, a ≤ b → (hookIssues a).Sublist (hookIssues b) := by
    intro a b hab
    rw [hookIssues, hookIssues]
    split_ifs with ha hb
    · exact List.Sublist.refl _
    · exact absurd (hab ha) hb
    · exact List.nil_sublist _
    · exact List.Sublist.refl _
  have hhooks' : (!m.hooks && callsHook cs) ≤ (!n.hooks && callsHook cs) := by
    intro hcalls
    rw [Bool.and_eq_true, Bool.not_eq_true'] at hcalls ⊢
    refine ⟨Bool.eq_false_of_le_false ?_, hcalls.2⟩
    rw [← hcalls.1]
    exact hhooks
  refine (issuesOfLines_sublist hcomponent 0 (lines cs)).append ((List.Sublist.refl _).append ?_)
  by_cases hm : m.component = true
  · rw [if_pos hm, if_pos (hcomponent hm)]
    exact (List.Sublist.refl _).append (hcalled hhooks')
  · rw [if_neg hm]
    exact List.nil_sublist _

end ScoreGate
