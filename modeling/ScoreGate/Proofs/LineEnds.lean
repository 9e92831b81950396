import ScoreGate.Proofs.Histories
import ScoreGate.Proofs.Marks
import ScoreGate.Proofs.Printing
import ScoreGate.Proofs.Rereading
import ScoreGate.Proofs.Respacing

/-!
# Carriage returns at the ends of lines

A text may end its lines in a carriage return and a line feed or in a line feed alone.  The return is a blank at the end of
a line, where no rule looks for a word and where the text as a whole has blanks anyway; in a file the two are read as one.
So neither way of ending lines is seen in an analysis.

* `withReturns`: a text with a carriage return before each line feed; `lines_withReturns`, `respaced_withReturns`.
* `readsAlike_return`: a return at the end of a line is not seen by the rules about lines.
* `analyses_without_returns`: the analyses of the two texts, and of files that hold them.
-/

namespace ScoreGate

/-! ### Lines -/

/-- A text with a carriage return before each line feed. -/
def withReturns (cs : List Char) : List Char := cs.flatMap fun c => if c = '\n' then ['\r', '\n'] else [c]

theorem withReturns_newline (cs : List Char) : withReturns ('\n' :: cs) = '\r' :: '\n' :: withReturns cs := rfl

theorem withReturns_cons {c : Char} (hc : c ≠ '\n') (cs : List Char) : withReturns (c :: cs) = c :: withReturns cs := by
  unfold withReturns
  rw [List.flatMap_cons, if_neg hc]
  rfl

theorem lines_withReturns (cs : List Char) :
    List.Forall₂ (fun l m => m = l ∨ m = l ++ ['\r']) (lines cs) (lines (withReturns cs)) := by
  unfold lines
  induction cs with
  | nil => exact .cons (Or.inl rfl) .nil
  | cons c cs ih =>
    by_cases hc : c = '\n'
    · subst hc
      rw [withReturns_newline, splitOn, if_pos rfl, splitOn, if_neg (by decide), splitOn, if_pos rfl]
      exact .cons (Or.inr rfl) ih
    · rw [withReturns_cons hc, splitOn, splitOn, if_neg hc, if_neg hc]
      rcases hls : splitOn '\n' cs with _ | ⟨l, ls⟩
      · exact absurd hls (splitOn_ne_nil _ _)
      · rcases hms : splitOn '\n' (withReturns cs) with _ | ⟨m, ms⟩
        · exact absurd hms (splitOn_ne_nil _ _)
        · rw [hls, hms] at ih
          obtain ⟨hl, hrest⟩ := List.forall₂_cons.mp ih
          refine .cons ?_ hrest
          rcases hl with rfl | rfl
          · exact Or.inl rfl
          · exact Or.inr rfl

/-- A carriage return is a blank beside a blank. -/
theorem respaced_withReturns (cs : List Char) : Respaced cs (withReturns cs) := by
  induction cs with
  | nil => exact .nil
  | cons c cs ih =>
    by_cases hc : c = '\n'
    · subst hc
      have hreturn : AreBlanks ['\r', '\n'] := ⟨by simp, by simp [isBlank]⟩
      exact .blanks (areBlanks_singleton (by decide)) hreturn ih
    · rw [withReturns_cons hc]
      exact (Respaced.refl [c]).append ih

/-! ### Rules about lines -/

/-- A blank at the end is no part of what is left of a line. -/
theorem strip_append_blank {c : Char} (hc : isBlank c = true) (l : List Char) : strip (l ++ [c]) = strip l := by
  unfold strip trimWhile dropEndWhile
  rw [List.dropWhile_append]
  by_cases hl : l.dropWhile isBlank = []
  · rw [hl]
    simp [hc]
  · rw [if_neg (by simpa using hl), List.reverse_append, List.reverse_singleton, List.singleton_append,
      List.dropWhile_cons_of_pos hc]

/-- The words that a rule looks for or must not find. -/
def LinePattern.needles : LinePattern → List String
  | .every needles => needles
  | .some needles => needles
  | .without needle absent => [needle, absent]

theorem LinePattern.matches_congr {p : LinePattern} {l m : List Char}
    (h : ∀ n ∈ p.needles, occursIn n.toList l = occursIn n.toList m) : p.matches l = p.matches m := by
  cases p with
  | every needles =>
    show (needles.all fun n => occursIn n.toList l) = needles.all fun n => occursIn n.toList m
    rw [Bool.eq_iff_iff, List.all_eq_true, List.all_eq_true]
    exact forall₂_congr fun n hn => by rw [h n hn]
  | some needles =>
    show (needles.any fun n => occursIn n.toList l) = needles.any fun n => occursIn n.toList m
    rw [Bool.eq_iff_iff, List.any_eq_true, List.any_eq_true]
    exact exists_congr fun n => and_congr_right fun hn => by rw [h n hn]
  | without needle absent =>
    show (occursIn needle.toList l && !occursIn absent.toList l) = (occursIn needle.toList m && !occursIn absent.toList m)
    rw [h needle (by simp [needles]), h absent (by simp [needles])]

/-- No rule looks for a carriage return, or for nothing. -/
theorem LineRule.needles_all : ∀ r ∈ all, ∀ n ∈ r.pattern.needles, n.toList ≠ [] ∧ '\r' ∉ n.toList := by
  decide

/-- A carriage return at the end of a line is not seen. -/
theorem readsAlike_return (l : List Char) : ReadsAlike l (l ++ ['\r']) := by
  have hskipped : isSkippedLine (l ++ ['\r']) = isSkippedLine l := by
    unfold isSkippedLine
    rw [strip_append_blank (by decide)]
  refine ⟨fun components => ?_, (isPrefixOf_append_sep (by decide) l []).symm⟩
  unfold rulesFor
  rw [hskipped]
  refine if_congr Iff.rfl rfl (List.filter_congr fun r hr => ?_)
  have hmatches : r.pattern.matches l = r.pattern.matches (l ++ ['\r']) := by
    apply LinePattern.matches_congr
    intro n hn
    obtain ⟨hne, hreturn⟩ := LineRule.needles_all r hr n hn
    rw [occursIn_append_sep hne hreturn, occursIn.eq_1, List.isEmpty_eq_false_iff.mpr hne, Bool.or_false]
  rw [hmatches]

/-! ### Files -/

/-- Where there were no carriage returns, those before the line feeds are read away. -/
theorem unifyLineEnds_withReturns {cs : List Char} (h : '\r' ∉ cs) : unifyLineEnds (withReturns cs) = cs := by
  induction cs with
  | nil => rfl
  | cons c cs ih =>
    obtain ⟨hc, hcs⟩ := List.ne_and_not_mem_of_not_mem_cons h
    by_cases hline : c = '\n'
    · subst hline
      rw [withReturns_newline, unifyLineEnds, ih hcs]
    · rw [withReturns_cons hline, unifyLineEnds, ih hcs]
      · exact fun _ hreturn => absurd hreturn hc.symm
      · exact fun hreturn => absurd hreturn hc.symm

theorem exec_analyzeFile {w : Workspace} {p : Path} {s : String} (h : w.node p = .ok (.file s.toUTF8)) :
    ∃ v, (analyzeFile p).exec w = (.ok (analyzeText (String.ofList (unifyLineEnds s.toList)) p.text), v) := by
  have hread : (readSource p).exec w = (.ok (String.ofList (unifyLineEnds s.toList)), w) := by
    rw [exec_readSource, h]
    simp only [fromUTF8?_toUTF8]
  rw [analyzeFile, Action.exec_bind_ok hread]
  exact ⟨_, rfl⟩

/-! ### Analyses -/

/-- A text with a carriage return before each line feed. -/
def returned (text : String) : String := String.ofList (withReturns text.toList)

/-- How lines end is not seen in an analysis of a text, nor in one of a file. -/
theorem analyses_without_returns (content path : String) :
    analyzeText (returned content) path = analyzeText content path ∧
      ('\r' ∉ content.toList → ∀ (p : Path) (v w : Workspace), v.node p = .ok (.file content.toUTF8) →
        w.node p = .ok (.file (returned content).toUTF8) →
          ∃ v' w', (analyzeFile p).exec v = (.ok (analyzeText content p.text), v') ∧
            (analyzeFile p).exec w = (.ok (analyzeText content p.text), w')) := by
  have hlist : (returned content).toList = withReturns content.toList := String.toList_ofList
  constructor
  · have halike : List.Forall₂ ReadsAlike (lines content.toList) (lines (returned content).toList) := by
      rw [hlist]
      refine (lines_withReturns content.toList).imp fun l m hline => ?_
      rcases hline with rfl | rfl
      · exact .refl _
      · exact readsAlike_return l
    -- declarations and calls are searched in the whole text, where a carriage return is one more blank
    have hspaced : Respaced content.toList (returned content).toList := by
      rw [hlist]
      exact respaced_withReturns content.toList
    have hissues := textIssues_congr path halike fun _ =>
      ⟨by rw [hspaced.countComponents_eq], by rw [callsHook, callsHook, hspaced.callsHookFrom_eq]⟩
    exact (analyzeText_congr hissues halike.length_eq).symm
  · intro hreturn p v w hv hw
    obtain ⟨v', hv'⟩ := exec_analyzeFile hv
    obtain ⟨w', hw'⟩ := exec_analyzeFile hw
    rw [unifyLineEnds_eq_self hreturn, String.ofList_toList] at hv'
    rw [hlist, unifyLineEnds_withReturns hreturn, String.ofList_toList] at hw'
    exact ⟨v', w', hv', hw'⟩

/-- A call that runs over the end of a line. -/
def splitCall : String := "const [n] = useState\n(0)\n"

/-- A workspace with one component file. -/
def holding (text : String) : Workspace := { Store.blank with tree := ⟨[(["a.tsx"], .file text.toUTF8)]⟩ }

theorem analyses_without_returns_call : '\r' ∉ splitCall.toList ∧ (analyzeText splitCall "a.tsx").issues.length = 1 ∧
    ∃ v w, (analyzeFile (.ofText "a.tsx")).exec (holding splitCall) = (.ok (analyzeText splitCall "a.tsx"), v) ∧
      (analyzeFile (.ofText "a.tsx")).exec (holding (returned splitCall)) = (.ok (analyzeText splitCall "a.tsx"), w) := by
  have hreturn : '\r' ∉ splitCall.toList := by decide
  have hnode (text : String) : (holding text).node (.ofText "a.tsx") = .ok (.file text.toUTF8) := rfl
  have htext : (Path.ofText "a.tsx").text = "a.tsx" := by decide +kernel
  obtain ⟨v, w, hv, hw⟩ := (analyses_without_returns splitCall "a.tsx").2 hreturn (.ofText "a.tsx") _ _ (hnode _) (hnode _)
  rw [htext] at hv hw
  exact ⟨hreturn, by decide +kernel, v, w, hv, hw⟩

end ScoreGate
