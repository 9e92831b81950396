import ScoreGate.Proofs.Standstill

/-!
# Which snapshots can be compared

A snapshot that was read from a document has passed its check, so every path stands for at most one of its files.  But
reading takes the score of a file as it is.  Two snapshots can be compared exactly if the scores of every path that both
have can be held against each other, and then a path is in exactly one group unless its new score is missing.

* `Value.sameName_symm`, `Value.sameName_trans`: names that are the same.
* `Value.Comparable`: scores that can be held against each other.
* `compares_documents`: two documents, and a document against itself.
-/

namespace ScoreGate

/-! ### Names -/

namespace Number

variable {x y z : Number}

theorem same_symm (x y : Number) : x.same y = y.same x := Bool.and_comm _ _

theorem same_trans (h : x.same y = true) (h' : y.same z = true) : x.same z = true := by
  rw [same, Bool.and_eq_true] at *
  exact ⟨le_trans h.1 h'.1, le_trans h'.2 h.2⟩

theorem nan_same (x : Number) : (Number.real .nan).same x = false := rfl

end Number

namespace Value

variable {u v w : Value}

theorem sameName_number (x y : Number) : sameName (.number x) (.number y) =
    (x.same y || decide (x = .real .nan) && decide (y = .real .nan)) := by
  by_cases hx : x = .real .nan
  · subst hx
    by_cases hy : y = .real .nan
    · subst hy
      rfl
    · have hname : sameName (.number (.real .nan)) (.number y) = (Number.real .nan).same y := by
        rcases y with _ | _ | (_ | _ | _)
        case real.nan => exact absurd rfl hy
        all_goals rfl
      simp [hname, hy, Number.nan_same]
  · have hname : sameName (.number x) (.number y) = x.same y := by
      rcases x with _ | _ | (_ | _ | _)
      case real.nan => exact absurd rfl hx
      all_goals rfl
    simp [hname, hx]

theorem sameName_symm (v w : Value) : v.sameName w = w.sameName v := by
  rcases v with _ | x | s | _ | _ | m <;> rcases w with _ | y | t | _ | _ | n
  case number.number => rw [sameName_number, sameName_number, Number.same_symm, Bool.and_comm (decide _)]
  case text.text => exact Bool.beq_comm
  case moment.moment => exact Bool.beq_comm
  all_goals simp [sameName]

theorem sameName_trans (h : u.sameName v = true) (h' : v.sameName w = true) : u.sameName w = true := by
  rcases u with _ | x | s | _ | _ | m <;> rcases v with _ | y | t | _ | _ | n
  case number.number =>
    rcases w with _ | z | _ | _ | _ | _
    case number =>
      rw [sameName_number, Bool.or_eq_true, Bool.and_eq_true, decide_eq_true_eq, decide_eq_true_eq] at *
      rcases h with h | ⟨rfl, rfl⟩
      · rcases h' with h' | ⟨rfl, rfl⟩
        · exact Or.inl (Number.same_trans h h')
        · rw [Number.same_symm, Number.nan_same] at h
          cases h
      · exact h'
    all_goals simp [sameName] at h'
  case text.text =>
    have heq : s = t := by simpa using h
    exact heq ▸ h'
  case moment.moment =>
    have heq : m = n := by simpa [sameName] using h
    exact heq ▸ h'
  case null.null => exact h'
  all_goals simp [sameName] at h

end Value

namespace Snapshot

variable {s : Snapshot} {g : FileSummary} {path : Value}

/-- What a document holds has passed its check. -/
theorem check_of_ofValue {v : Value} (h : ofValue v = .ok s) : s.check = .ok s := by
  simp only [ofValue, bind_eq_ok] at h
  obtain ⟨_, -, _, -, _, -, _, -, _, -, _, -, _, -, _, -, _, -, _, -, _, -, _, -, hcheck⟩ := h
  obtain ⟨rfl, -⟩ := check_eq_ok.mp hcheck
  exact hcheck

/-- The file of a path is the only one whose path is the same. -/
theorem find?_of_sameName (h : s.check = .ok s) (hg : g ∈ s.files) (hpath : g.path.sameName path = true) :
    (s.files.find? fun f => f.path.sameName path) = some g := by
  obtain ⟨-, -, -, hpair⟩ := check_eq_ok.mp h
  rcases hfind : s.files.find? fun f => f.path.sameName path with _ | f
  · exact absurd hpath (List.find?_eq_none.mp hfind g hg)
  · have hf := List.mem_of_find?_eq_some hfind
    have hsame : f.path.sameName path = true := by simpa using List.find?_some hfind
    by_contra hne
    have hsymm : Std.Symm fun f g : FileSummary => g.path.sameName f.path = false :=
      ⟨fun f g hfg => by rwa [Value.sameName_symm]⟩
    have hdiffer : g.path.sameName f.path = false := hpair.forall hf hg fun heq => hne (by rw [hfind, heq])
    rw [Value.sameName_symm] at hsame
    rw [Value.sameName_trans hpath hsame] at hdiffer
    cases hdiffer

end Snapshot

/-! ### Scores -/

/-- Scores that can be held against each other: both are integers, or both have a floating-point form. -/
def Value.Comparable (old new : Value) : Prop := ∃ x y, old = .number x ∧ new = .number y ∧
  ((∃ m n, x.toInt? = some m ∧ y.toInt? = some n) ∨ ∃ a b, x.toReal = .ok a ∧ y.toReal = .ok b)

theorem Number.sub_eq_ok {x y : Number} : (∃ z, x.sub y = .ok z) ↔
    (∃ m n, x.toInt? = some m ∧ y.toInt? = some n) ∨ ∃ a b, x.toReal = .ok a ∧ y.toReal = .ok b := by
  rw [sub, combine]
  rcases hx : x.toInt? with _ | m
  · rcases ha : x.toReal with e | a <;> rcases hb : y.toReal with e' | b <;> simp
  · rcases hy : y.toInt? with _ | n
    · rcases ha : x.toReal with e | a <;> rcases hb : y.toReal with e' | b <;> simp
    · simp

/-- A file is classified where its two scores can be held against each other. -/
theorem classify_eq_ok {old new : Value} : (∃ change, classify old new = .ok change) ↔ old.Comparable new := by
  constructor
  · rintro ⟨change, h⟩
    simp only [classify, bind_eq_ok] at h
    obtain ⟨x, hx, y, hy, z, hz, -⟩ := h
    have hold : old = .number x := by
      rcases old
      case number => rw [Except.ok.inj hx]
      all_goals cases hx
    have hnew : new = .number y := by
      rcases new
      case number => rw [Except.ok.inj hy]
      all_goals cases hy
    refine ⟨x, y, hold, hnew, ?_⟩
    rcases Number.sub_eq_ok.mp ⟨z, hz⟩ with ⟨m, n, hm, hn⟩ | ⟨a, b, ha, hb⟩
    · exact Or.inl ⟨n, m, hn, hm⟩
    · exact Or.inr ⟨b, a, hb, ha⟩
  · rintro ⟨x, y, rfl, rfl, h⟩
    -- the difference is all that can fail, and it fails for whole numbers without a nearest real beside a real
    have hsub : ∃ z, y.sub x = .ok z := by
      refine Number.sub_eq_ok.mpr ?_
      rcases h with ⟨m, n, hm, hn⟩ | ⟨a, b, ha, hb⟩
      · exact Or.inl ⟨n, m, hn, hm⟩
      · exact Or.inr ⟨b, a, hb, ha⟩
    obtain ⟨z, hz⟩ := hsub
    simp only [classify, Value.toNumber, ok_bind, hz, pure_eq_ok]
    split_ifs
    · exact ⟨_, rfl⟩
    · exact ⟨_, rfl⟩
    · exact ⟨_, rfl⟩

def Value.IsFinite (v : Value) : Prop := ∃ x q, v = .number x ∧ x.place = .point q

/-- A score against itself is unchanged if it is finite; any other number is not. -/
theorem classify_same (x : Number) : ∃ change, classify (.number x) (.number x) = .ok change ∧
    (change = .unchanged ↔ ∃ q, x.place = .point q) := by
  rcases x with b | n | (_ | a | ⟨a, m, e, h⟩)
  case flag =>
    refine ⟨.unchanged, ?_, by simp [Number.place]⟩
    cases b <;> rfl
  case int => exact ⟨.unchanged, classify_self n, by simp [Number.place]⟩
  case real.nan => exact ⟨.improved, rfl, by simp [Number.place, Binary64.place]⟩
  case real.infinity =>
    refine ⟨.improved, ?_, ?_⟩
    · cases a <;> rfl
    · cases a <;> simp [Number.place, Binary64.place]
  case real.finite =>
    have hsub : (Number.real (.finite a m e h)).sub (.real (.finite a m e h)) = .ok (.real (.zero false)) := by
      rw [← Binary64.finite_sub_self a m e h]
      rfl
    have hnear : ((Number.real (.zero false)).abs.roundPlaces distancePlaces).lt (.real scoreTolerance) = true := by
      decide +kernel
    refine ⟨.unchanged, ?_, by simp [Number.place, Binary64.place]⟩
    simp only [classify, Value.toNumber, ok_bind, hsub, hnear, if_true, pure_eq_ok]

/-- The tolerance is below one point. -/
theorem int_lt_scoreTolerance (k : ℕ) : (Number.int k).lt (.real scoreTolerance) = decide (k = 0) := by
  rcases k with _ | k
  · decide +kernel
  · have hone : (Number.real scoreTolerance).le (.int 1) = true := by decide +kernel
    have hle : (Number.int 1).le (.int (k + 1 : ℕ)) = true := Number.int_le_int.mpr (by omega)
    rw [Number.not_lt_of_le (Number.le_trans hone hle)]
    rfl

/-- Whole scores are the same only if they are equal. -/
theorem classify_whole {x y : Number} {m n : ℤ} (hx : x.toInt? = some m) (hy : y.toInt? = some n) :
    classify (.number x) (.number y) = .ok (if n = m then .unchanged else if n < m then .regressed else .improved) := by
  have hsub : y.sub x = .ok (.int (n - m)) := by rw [Number.sub, Number.combine, hx, hy]
  have hdistance : (Number.int (n - m)).abs.roundPlaces distancePlaces = .int (n - m).natAbs := rfl
  have hnear : decide ((n - m).natAbs = 0) = decide (n = m) := decide_eq_decide.mpr (by omega)
  have hlt : y.lt x = decide (n < m) := by
    rw [Number.lt, Number.place_of_toInt? hx, Number.place_of_toInt? hy, Place.lt]
    exact decide_eq_decide.mpr (by exact_mod_cast Iff.rfl)
  simp only [classify, Value.toNumber, ok_bind, hsub, hdistance, int_lt_scoreTolerance, hnear, hlt, decide_eq_true_eq,
    pure_eq_ok]
  split_ifs <;> rfl

/-! ### Files -/

section Files

variable {b s : Snapshot} {f g : FileSummary}

/-- A file of the baseline and one of the current snapshot have the same path. -/
def Snapshot.Share (b s : Snapshot) (f g : FileSummary) : Prop :=
  f ∈ b.files ∧ g ∈ s.files ∧ g.path.sameName f.path = true

def Comparison.pathsOf (c : Comparison) : Change → List Value
  | .regressed => c.regression.files
  | .improved => c.improvement.files
  | .unchanged => c.unchanged

/-- A shared path changes as its two scores say; if the new one is missing, it does not count. -/
theorem changeOf?_of_share (hs : s.check = .ok s) (h : b.Share s f g) : changeOf? s.files f =
    if g.score = .null then .ok none else (classify f.score g.score).map some := by
  have hscore : scoreOf? s.files f.path = some g.score := by
    rw [scoreOf?, Snapshot.find?_of_sameName hs h.2.1 h.2.2]
    rfl
  rw [changeOf?, hscore]
  rcases hg : g.score
  case null => rfl
  all_goals rfl

theorem changeOf?_of_not_share (hf : f ∈ b.files) (h : ∀ g, ¬b.Share s f g) : changeOf? s.files f = .ok none := by
  have hscore : scoreOf? s.files f.path = none := by
    rw [scoreOf?, Option.map_eq_none_iff, List.find?_eq_none]
    exact fun g hg hpath => h g ⟨hf, hg, hpath⟩
  rw [changeOf?, hscore]

/-- A shared path has a change or none exactly if its new score is missing or can be held against the old one. -/
theorem changeOf?_eq_ok (hs : s.check = .ok s) (h : b.Share s f g) : (∃ change, changeOf? s.files f = .ok change) ↔
    g.score = .null ∨ f.score.Comparable g.score := by
  rw [changeOf?_of_share hs h]
  split_ifs with hnull
  · simp [hnull]
  · rw [or_iff_right hnull, ← classify_eq_ok]
    rcases classify f.score g.score with e | change <;> simp [Except.map]

/-- A comparison exists where every file of the baseline has a change or none. -/
theorem compareSnapshots_eq_ok : (∃ c, compareSnapshots b s = .ok c) ↔
    ∀ f ∈ b.files, ∃ change, changeOf? s.files f = .ok change := by
  constructor
  · rintro ⟨c, h⟩ f hf
    simp only [compareSnapshots, changes, bind_eq_ok] at h
    obtain ⟨entries, ⟨all, hall, -⟩, -⟩ := h
    obtain ⟨entry, hentry⟩ := ok_of_mapM hall f hf
    simp only [bind_eq_ok] at hentry
    obtain ⟨change, hchange, -⟩ := hentry
    exact ⟨change, hchange⟩
  · intro h
    obtain ⟨entries, hentries, -⟩ := changes_ok h
    exact ⟨_, by rw [compareSnapshots, hentries]; rfl⟩

/-- A comparison exists exactly if for each path that both snapshots have the new score is missing or can be held against
the old one. -/
theorem compareSnapshots_eq_ok_iff (hs : s.check = .ok s) : (∃ c, compareSnapshots b s = .ok c) ↔
    ∀ f g, b.Share s f g → g.score = .null ∨ f.score.Comparable g.score := by
  rw [compareSnapshots_eq_ok]
  constructor
  · exact fun h f g hshare => (changeOf?_eq_ok hs hshare).mp (h f hshare.1)
  · intro h f hf
    by_cases hshare : ∃ g, b.Share s f g
    · obtain ⟨g, hg⟩ := hshare
      exact (changeOf?_eq_ok hs hg).mpr (h f g hg)
    · exact ⟨none, changeOf?_of_not_share hf fun g hg => hshare ⟨g, hg⟩⟩

theorem compareSnapshots_amounts {c : Comparison} (h : compareSnapshots b s = .ok c) :
    c.regression.averageScore = .number (excess b.metrics.averageScore s.metrics.averageScore) ∧
    c.regression.highIssues = .number (rise b.metrics.highIssues s.metrics.highIssues) ∧
    c.regression.totalIssues = .number (rise b.metrics.totalIssues s.metrics.totalIssues) ∧
    c.improvement.averageScore = .number (excess s.metrics.averageScore b.metrics.averageScore) := by
  simp only [compareSnapshots, bind_eq_ok, pure_eq_ok, Except.ok.injEq] at h
  obtain ⟨_, -, rfl⟩ := h
  exact ⟨rfl, rfl, rfl, rfl⟩

theorem mem_pathsOf_iff_exists {c : Comparison} (h : compareSnapshots b s = .ok c) (change : Change) {path : Value} :
    path ∈ c.pathsOf change ↔ ∃ f ∈ b.files, f.path = path ∧ changeOf? s.files f = .ok (some change) := by
  obtain ⟨entries, hentries, hmem⟩ := changes_ok (compareSnapshots_eq_ok.mp ⟨c, h⟩)
  have hpaths : c.pathsOf change = ScoreGate.pathsOf change entries := by
    rw [compareSnapshots, hentries, ok_bind, pure_eq_ok, Except.ok.injEq] at h
    rw [← h]
    cases change <;> rfl
  rw [hpaths, mem_pathsOf, hmem]

/-- Whether the path of a file is in a group depends on its own change only. -/
theorem mem_pathsOf_iff (hb : b.check = .ok b) {c : Comparison} (h : compareSnapshots b s = .ok c) (hf : f ∈ b.files)
    (change : Change) : f.path ∈ c.pathsOf change ↔ changeOf? s.files f = .ok (some change) := by
  rw [mem_pathsOf_iff_exists h change]
  constructor
  · rintro ⟨g, hg, hpath, hchange⟩
    rwa [← Snapshot.path_injective hb hg hf hpath]
  · exact fun hchange => ⟨f, hf, rfl, hchange⟩

end Files

/-! ### Documents -/

section Documents

variable {b s : Snapshot} {u v : Value}

theorem Snapshot.share_self (hb : b.check = .ok b) {f : FileSummary} (hf : f ∈ b.files) : b.Share b f f :=
  ⟨hf, hf, Value.sameName_self ((check_eq_ok.mp hb).2.2.1 f hf)⟩

/-- A score can be held against itself if it is a number. -/
theorem comparable_self {score : Value} : score.Comparable score ↔ ∃ x, score = .number x := by
  constructor
  · rintro ⟨x, -, hx, -, -⟩
    exact ⟨x, hx⟩
  · rintro ⟨x, rfl⟩
    obtain ⟨change, hchange, -⟩ := classify_same x
    exact classify_eq_ok.mp ⟨change, hchange⟩

/-- The snapshots of two documents can be compared exactly if for each path that both have the new score is missing or
can be held against the old one.  Then the path is in exactly one group, or in none if the new score is missing.  A
snapshot can be compared with itself exactly if its scores are numbers or missing, and then its files are unchanged
exactly if their scores are finite. -/
theorem compares_documents (hb : Snapshot.ofValue u = .ok b) (hs : Snapshot.ofValue v = .ok s) :
    ((∃ c, compareSnapshots b s = .ok c) ↔ ∀ f g, b.Share s f g → g.score = .null ∨ f.score.Comparable g.score) ∧
    (∀ c, compareSnapshots b s = .ok c → ∀ f g, b.Share s f g →
      (g.score ≠ .null → ∃! change, f.path ∈ c.pathsOf change) ∧
      (g.score = .null → ∀ change, f.path ∉ c.pathsOf change)) ∧
    ((∃ c, compareSnapshots b b = .ok c) ↔ ∀ f ∈ b.files, f.score = .null ∨ ∃ x, f.score = .number x) ∧
    ∀ c, compareSnapshots b b = .ok c → ∀ f ∈ b.files, f.path ∈ c.pathsOf .unchanged ↔ f.score.IsFinite := by
  have hb := Snapshot.check_of_ofValue hb
  have hs := Snapshot.check_of_ofValue hs
  refine ⟨?_, fun c hc f g hshare => ⟨fun hsome => ?_, fun hnull change hmem => ?_⟩, ?_, fun c hc f hf => ?_⟩
  · exact compareSnapshots_eq_ok_iff hs
  · have hchange := compareSnapshots_eq_ok.mp ⟨c, hc⟩ f hshare.1
    rw [changeOf?_of_share hs hshare, if_neg hsome] at hchange
    obtain ⟨r, hr⟩ := hchange
    rcases hclass : classify f.score g.score with e | change
    · rw [hclass] at hr
      cases hr
    · -- each group is that of one change
      have hgroup : ∀ other, f.path ∈ c.pathsOf other ↔ change = other := by
        intro other
        rw [mem_pathsOf_iff hb hc hshare.1, changeOf?_of_share hs hshare, if_neg hsome, hclass]
        simp [Except.map]
      exact ⟨change, (hgroup change).mpr rfl, fun other hother => ((hgroup other).mp hother).symm⟩
  · rw [mem_pathsOf_iff hb hc hshare.1, changeOf?_of_share hs hshare, if_pos hnull] at hmem
    cases hmem
  · rw [compareSnapshots_eq_ok]
    refine forall₂_congr fun f hf => ?_
    rw [changeOf?_eq_ok hb (b.share_self hb hf), comparable_self]
  · have hself := b.share_self hb hf
    rw [mem_pathsOf_iff hb hc hf, changeOf?_of_share hb hself]
    split_ifs with hnull
    · simp [Value.IsFinite, hnull]
    · obtain hnumber | ⟨x, hx⟩ := (changeOf?_eq_ok hb hself).mp (compareSnapshots_eq_ok.mp ⟨c, hc⟩ f hf) |>.imp_right
        comparable_self.mp
      · exact absurd hnumber hnull
      · obtain ⟨change, hchange, hfinite⟩ := classify_same x
        rw [Value.IsFinite, hx, hchange]
        simp [Except.map, hfinite]

/-- A snapshot of one file with this score. -/
def Snapshot.single (score : Value) : Snapshot where
  id := "a"
  timestamp := 1
  branch := "main"
  commit := "c"
  metrics := ⟨1, 0, 0, 0, 0, .ofInt 90, .ofInt 90, .ofInt 90, .ofInt 90⟩
  files := [⟨.text "a.ts", 0, 0, 0, 0, score, .text "A", .full⟩]
  environment := ⟨.text "3", .text "1", .text "linux"⟩

/-- A whole score is unchanged against itself, and one that is no number is not. -/
theorem compares_single :
    (∃ c, compareSnapshots (.single (.int 90)) (.single (.int 90)) = .ok c ∧ .text "a.ts" ∈ c.pathsOf .unchanged) ∧
    ∃ c, compareSnapshots (.single (.real .nan)) (.single (.real .nan)) = .ok c ∧
      .text "a.ts" ∉ c.pathsOf .unchanged := by
  have hdocument : ∀ score, Snapshot.ofValue (Snapshot.single score).toValue = .ok (.single score) :=
    fun score => (Snapshot.ofValue_toValue _).trans rfl
  constructor
  · obtain ⟨-, -, hself, hunchanged⟩ := compares_documents (hdocument (.int 90)) (hdocument (.int 90))
    obtain ⟨c, hc⟩ := hself.mpr fun f hf => (by rw [List.mem_singleton.mp hf]; exact Or.inr ⟨_, rfl⟩)
    exact ⟨c, hc, (hunchanged c hc _ (List.mem_singleton_self _)).mpr ⟨_, _, rfl, rfl⟩⟩
  · obtain ⟨-, -, hself, hunchanged⟩ := compares_documents (hdocument (.real .nan)) (hdocument (.real .nan))
    obtain ⟨c, hc⟩ := hself.mpr fun f hf => (by rw [List.mem_singleton.mp hf]; exact Or.inr ⟨_, rfl⟩)
    refine ⟨c, hc, fun hmem => ?_⟩
    obtain ⟨x, q, hx, hplace⟩ := (hunchanged c hc _ (List.mem_singleton_self _)).mp hmem
    cases hx
    cases hplace

end Documents

end ScoreGate
