import ScoreGate.Proofs.Averages
import ScoreGate.Proofs.Drops

/-!
# Comparisons both ways

A comparison puts every path that both snapshots have into one group, in the order of the baseline.  With the snapshots
exchanged it tells the same story from the other end: the distance of two scores is the same, so the same files are
unchanged; a file that regressed has improved; and the amounts change sides.  Each amount is positive on one side at most.

* `classify_mirror`: the change of two scores, both ways.
* `Value.SameNames`: the same paths in some order.
* `Comparison.Partitions`, `Comparison.Mirrors`, `Comparison.OneSided`: what is said of a comparison and its mirror image.
* `compares_both_ways`: two snapshots compared both ways.
-/

namespace ScoreGate

/-! ### Distances -/

namespace Binary64

theorem abs_ofRatio (negative : Bool) (a b : ℕ) : (ofRatio negative a b).abs = (ofRatio false a b).abs := by
  simp only [ofRatio, pack]
  split_ifs <;> rfl

theorem abs_ofRat_neg (q : ℚ) : (ofRat (-q)).abs = (ofRat q).abs := by
  rw [ofRat, ofRat, abs_ofRatio, abs_ofRatio (decide (q < 0)), Rat.neg_num, Rat.neg_den, Int.natAbs_neg]

/-- Two numbers are as far from each other either way. -/
theorem abs_sub_comm (x y : Binary64) : (x.sub y).abs = (y.sub x).abs := by
  rcases x with _ | a | ⟨a, m, e, h⟩ <;> rcases y with _ | b | ⟨b, n, f, h'⟩
  case infinity.infinity => cases a <;> cases b <;> rfl
  case finite.finite =>
    have hopposite : finiteValue b n f + -finiteValue a m e = -(finiteValue a m e + -finiteValue b n f) := by ring
    simp only [sub, neg, add, finiteValue_not, hopposite, neg_eq_zero]
    split_ifs
    · rfl
    · exact (abs_ofRat_neg _).symm
  all_goals rfl

/-- Numbers at the same place have no distance. -/
theorem abs_sub_of_place_eq {x y : Binary64} {q : ℚ} (hx : x.place = .point q) (hy : y.place = .point q) :
    (x.sub y).abs = .zero false := by
  obtain ⟨a, m, e, h, rfl, hm⟩ := eq_finite_of_place hx
  obtain ⟨b, n, f, h', rfl, hn⟩ := eq_finite_of_place hy
  simp only [sub, neg, add, finiteValue_not, hm, hn, add_neg_cancel, if_true]
  rfl

/-- A difference is not above zero where the exact one is not. -/
theorem sub_le_zero {x y : Binary64} {p q : ℚ} (hx : x.place = .point p) (hy : y.place = .point q) (h : p ≤ q) :
    (x.sub y).place.le (.point 0) = true := by
  rw [place_sub hx hy, ← place_zero false, ← show ofRat 0 = zero false from rfl]
  exact ofRat_mono (by linarith)

end Binary64

/-- An average that is not higher is not above the other one. -/
theorem excess_eq_zero {high low : Binary64} {p q : ℚ} (hp : high.place = .point p) (hq : low.place = .point q)
    (h : p ≤ q) : excess high low = .real (.zero false) := by
  have hnot : (Number.real (.zero false)).lt (.real (high.sub low)) = false := by
    rw [Number.lt, Number.place_zero_real]
    exact Place.not_lt_of_le (Binary64.sub_le_zero hp hq h)
  rw [excess, Number.max, hnot]
  rfl

namespace Number

variable {x y z : Number}

/-- Whether a difference counts as none. -/
def isNear (difference : Number) : Bool :=
  (difference.abs.roundPlaces distancePlaces).lt (.real scoreTolerance)

theorem abs_sub_comm (h : x.sub y = .ok z) : ∃ z', y.sub x = .ok z' ∧ z'.abs = z.abs := by
  rw [sub, combine] at h ⊢
  rcases hx : x.toInt? with _ | m <;> rcases hy : y.toInt? with _ | n
  case some.some =>
    rw [hx, hy] at h
    obtain rfl := Except.ok.inj h
    refine ⟨_, rfl, ?_⟩
    simp only [abs, ← Int.natAbs_neg (m - n), neg_sub]
  all_goals
    rw [hx, hy] at h
    simp only [bind_eq_ok, pure_eq_ok, Except.ok.injEq] at h
    obtain ⟨r, hr, u, hu, rfl⟩ := h
    refine ⟨.real (u.sub r), by simp only [hr, hu, ok_bind, pure_eq_ok], ?_⟩
    simp only [abs, Binary64.abs_sub_comm u r]

theorem toReal_percent : ∀ n : Fin 101, (Number.int (n : ℕ)).toReal.toOption.map Binary64.place = some (.point (n : ℕ)) := by
  decide +kernel

/-- A score stays where it is when it is converted. -/
theorem toReal_of_isPercent (h : x.isPercent = true) : ∃ r, x.toReal = .ok r ∧ r.place = x.place := by
  rcases x with b | n | r
  case flag => cases b <;> exact ⟨_, rfl, by decide +kernel⟩
  case real => exact ⟨r, rfl, rfl⟩
  case int =>
    rw [isPercent, Bool.and_eq_true] at h
    have h0 : 0 ≤ n := int_le_int.mp h.1
    have h1 : n ≤ 100 := int_le_int.mp h.2
    obtain ⟨k, rfl⟩ := Int.eq_ofNat_of_zero_le h0
    have hplace := toReal_percent ⟨k, by omega⟩
    rcases hr : (Number.int (k : ℕ)).toReal with e | r
    · rw [hr] at hplace
      cases hplace
    · rw [hr] at hplace
      exact ⟨r, rfl, Option.some.inj hplace⟩

theorem isNear_of_place_eq (hx : x.isPercent = true) (hy : y.isPercent = true) (h : x.place = y.place)
    (hz : x.sub y = .ok z) : z.isNear = true := by
  suffices hzero : z.abs = .int 0 ∨ z.abs = .real (.zero false) by
    rw [isNear]
    rcases hzero with hzero | hzero <;> rw [hzero] <;> decide +kernel
  obtain ⟨q, hq⟩ := place_of_isPercent hx
  obtain ⟨r, hr, hrx⟩ := toReal_of_isPercent hx
  obtain ⟨u, hu, huy⟩ := toReal_of_isPercent hy
  rw [sub, combine, hr, hu] at hz
  rcases hm : x.toInt? with _ | m <;> rcases hn : y.toInt? with _ | n
  case some.some =>
    rw [hm, hn] at hz
    rw [place_of_toInt? hm, place_of_toInt? hn] at h
    have heq : m = n := by exact_mod_cast Place.point.inj h
    obtain rfl := Except.ok.inj hz
    exact Or.inl (by rw [heq, Int.sub_self]; rfl)
  all_goals
    rw [hm, hn] at hz
    obtain rfl := Except.ok.inj hz
    exact Or.inr (congrArg Number.real (Binary64.abs_sub_of_place_eq (hrx.trans hq) (huy.trans (h ▸ hq))))

end Number

/-! ### Changes -/

/-- The change the other way round. -/
def Change.mirror : Change → Change
  | .regressed => .improved
  | .improved => .regressed
  | .unchanged => .unchanged

@[simp] theorem Change.mirror_mirror (change : Change) : change.mirror.mirror = change := by
  cases change <;> rfl

theorem classify_number {x y z : Number} (h : y.sub x = .ok z) : classify (.number x) (.number y) =
    .ok (if z.isNear then .unchanged else if y.lt x then .regressed else .improved) := by
  have hnear : (z.abs.roundPlaces distancePlaces).lt (.real scoreTolerance) = z.isNear := rfl
  simp only [classify, Value.toNumber, ok_bind, h, pure_eq_ok, hnear]
  split_ifs <;> rfl

/-- Two scores have a change, and the other way round its mirror image: where they are not near, one is below the other. -/
theorem classify_mirror {x y : Number} (hx : x.isPercent = true) (hy : y.isPercent = true) :
    ∃ change, classify (.number x) (.number y) = .ok change ∧ classify (.number y) (.number x) = .ok change.mirror := by
  obtain ⟨z, hz⟩ := Number.sub_ok (.of_isPercent hy) (.of_isPercent hx)
  obtain ⟨z', hz', habs⟩ := Number.abs_sub_comm hz
  have hnear : z'.isNear = z.isNear := by rw [Number.isNear, habs, Number.isNear]
  refine ⟨_, classify_number hz, ?_⟩
  rw [classify_number hz', hnear]
  split_ifs with hclose hyx hxy hxy
  · rfl
  · -- neither can be below the other both ways
    have hnot := Place.not_lt_of_le (Place.le_of_lt hyx)
    exact absurd hxy (by rw [Number.lt, hnot]; simp)
  · rfl
  · rfl
  · refine absurd (Number.isNear_of_place_eq hy hx ?_ hz) hclose
    obtain ⟨p, hp⟩ := Number.place_of_isPercent hx
    obtain ⟨q, hq⟩ := Number.place_of_isPercent hy
    rw [Number.lt, hp, hq, Place.lt, decide_eq_true_eq, not_lt] at hyx hxy
    rw [hp, hq, le_antisymm hxy hyx]

/-! ### Files -/

/-- The same names in some order. -/
def Value.SameNames (ps qs : List Value) : Prop :=
  ∃ rs, List.Forall₂ (fun p r => p.sameName r = true) ps rs ∧ rs.Perm qs

theorem Value.sameNames_of_forall {ps qs : List Value} (hps : ps.Pairwise fun p q => p.sameName q = false)
    (hqs : qs.Pairwise fun p q => p.sameName q = false) (h : ∀ p ∈ ps, ∃ q ∈ qs, p.sameName q = true)
    (h' : ∀ q ∈ qs, ∃ p ∈ ps, p.sameName q = true) : SameNames ps qs := by
  induction ps generalizing qs with
  | nil =>
    have hnone : qs = [] := List.eq_nil_iff_forall_not_mem.mpr fun q hq => by
      obtain ⟨p, hp, -⟩ := h' q hq
      cases hp
    subst hnone
    exact ⟨[], .nil, .refl _⟩
  | cons p ps ih =>
    rw [List.pairwise_cons] at hps
    obtain ⟨q, hq, hpq⟩ := h p (by simp)
    obtain ⟨us, vs, rfl⟩ := List.append_of_mem hq
    -- what is left when the first name is taken out on both sides
    have hperm : (us ++ q :: vs).Perm (q :: (us ++ vs)) := List.perm_middle
    have hsymm : ∀ {p q : Value}, p.sameName q = false → q.sameName p = false := fun h => by rwa [sameName_symm]
    have hrest := (hperm.pairwise_iff hsymm).mp hqs
    rw [List.pairwise_cons] at hrest
    have hleft : ∀ p' ∈ ps, ∃ q' ∈ us ++ vs, p'.sameName q' = true := by
      intro p' hp'
      obtain ⟨q', hq', hpq'⟩ := h p' (by simp [hp'])
      rcases List.mem_cons.mp (hperm.subset hq') with rfl | hmem
      · rw [sameName_symm] at hpq'
        exact absurd (sameName_trans hpq hpq') (by simp [hps.1 p' hp'])
      · exact ⟨q', hmem, hpq'⟩
    have hright : ∀ q' ∈ us ++ vs, ∃ p' ∈ ps, p'.sameName q' = true := by
      intro q' hq'
      obtain ⟨p', hp', hpq'⟩ := h' q' (hperm.symm.subset (by simp [hq']))
      rcases List.mem_cons.mp hp' with rfl | hmem
      · rw [sameName_symm] at hpq
        exact absurd (sameName_trans hpq hpq') (by simp [hrest.1 q' hq'])
      · exact ⟨p', hmem, hpq'⟩
    obtain ⟨rs, hrs, hperm'⟩ := ih hps.2 hrest.2 hleft hright
    exact ⟨q :: rs, .cons hpq hrs, (hperm'.cons q).trans hperm.symm⟩

theorem Value.SameNames.perm {ps qs : List Value} (h : SameNames ps qs) (htexts : ∀ p ∈ ps, ∃ s, p = .text s) :
    ps.Perm qs := by
  obtain ⟨rs, hrs, hperm⟩ := h
  refine List.Perm.trans (.of_eq ?_) hperm
  clear hperm
  induction hrs with
  | nil => rfl
  | @cons p r ps rs hname hrest ih =>
    obtain ⟨s, rfl⟩ := htexts p (by simp)
    have hr : r = .text s := by
      rcases r
      case text t => exact congrArg Value.text (beq_iff_eq.mp hname).symm
      all_goals simp [sameName] at hname
    rw [hr, ih fun q hq => htexts q (by simp [hq])]

/-- A snapshot as it can be compared: it passes its check, its files have scores from 0 to 100, and its average is
finite. -/
structure Snapshot.Rated (s : Snapshot) : Prop where
  check : s.check = .ok s
  scores : ∀ f ∈ s.files, ∃ x, f.score = .number x ∧ x.isPercent = true
  average : ∃ q, s.metrics.averageScore.place = .point q

def FileSummary.change? (current : List FileSummary) (f : FileSummary) : Option Change :=
  (changeOf? current f).toOption.join

section Files

variable {b s : Snapshot} {f g : FileSummary} {c : Comparison} {change change' : Change}

theorem Snapshot.Share.symm (h : b.Share s f g) : s.Share b g f := ⟨h.2.1, h.1, by rw [Value.sameName_symm, h.2.2]⟩

/-- A shared path has a change, and the other way round its mirror image. -/
theorem Snapshot.Share.changes (h : b.Share s f g) (hb : b.Rated) (hs : s.Rated) :
    ∃ change, changeOf? s.files f = .ok (some change) ∧ changeOf? b.files g = .ok (some change.mirror) := by
  obtain ⟨x, hx, hpercent⟩ := hb.scores f h.1
  obtain ⟨y, hy, hpercent'⟩ := hs.scores g h.2.1
  obtain ⟨change, hchange, hmirror⟩ := classify_mirror hpercent hpercent'
  refine ⟨change, ?_, ?_⟩
  · rw [changeOf?_of_share hs.check h, hx, hy, hchange]
    rfl
  · rw [changeOf?_of_share hb.check h.symm, hx, hy, hmirror]
    rfl

theorem Snapshot.Rated.compares (hb : b.Rated) (hs : s.Rated) : ∃ c, compareSnapshots b s = .ok c := by
  refine compareSnapshots_eq_ok.mpr fun f hf => ?_
  by_cases hshare : ∃ g, b.Share s f g
  · obtain ⟨g, hshare⟩ := hshare
    obtain ⟨change, hchange, -⟩ := hshare.changes hb hs
    exact ⟨_, hchange⟩
  · exact ⟨none, changeOf?_of_not_share hf fun g hg => hshare ⟨g, hg⟩⟩

theorem pathsOf_eq (h : compareSnapshots b s = .ok c) (change : Change) :
    c.pathsOf change = (b.files.filter fun f => f.change? s.files = some change).map (·.path) := by
  have hchanges : changes b.files s.files =
      .ok (b.files.filterMap fun f => (f.change? s.files).map (f.path, ·)) := by
    have hall : (b.files.mapM fun old => do return (old.path, ← changeOf? s.files old)) =
        Except.ok (b.files.map fun f => (f.path, f.change? s.files)) := by
      refine mapM_eq_ok fun f hf => ?_
      obtain ⟨r, hr⟩ := compareSnapshots_eq_ok.mp ⟨c, h⟩ f hf
      rw [FileSummary.change?, hr]
      rfl
    rw [changes, hall, ok_bind, List.filterMap_map]
    rfl
  rw [compareSnapshots, hchanges, ok_bind, pure_eq_ok, Except.ok.injEq] at h
  have hpaths : c.pathsOf change =
      ScoreGate.pathsOf change (b.files.filterMap fun f => (f.change? s.files).map (f.path, ·)) := by
    rw [← h]
    cases change <;> rfl
  rw [hpaths]
  clear hpaths h hchanges
  induction b.files with
  | nil => rfl
  | cons f files ih =>
    rcases hf : f.change? s.files with _ | other
    · simpa [hf, ScoreGate.pathsOf] using ih
    · by_cases heq : other = change <;> simpa [hf, heq, ScoreGate.pathsOf] using ih

theorem pathsOf_sublist (h : compareSnapshots b s = .ok c) (change : Change) :
    (c.pathsOf change).Sublist (b.files.map (·.path)) := by
  rw [pathsOf_eq h]
  exact List.filter_sublist.map _

theorem share_of_mem_pathsOf (h : compareSnapshots b s = .ok c) {path : Value} (hpath : path ∈ c.pathsOf change) :
    ∃ f g, b.Share s f g ∧ f.path = path ∧ changeOf? s.files f = .ok (some change) := by
  obtain ⟨f, hf, rfl, hchange⟩ := (mem_pathsOf_iff_exists h change).mp hpath
  by_cases hshare : ∃ g, b.Share s f g
  · obtain ⟨g, hshare⟩ := hshare
    exact ⟨f, g, hshare, rfl, hchange⟩
  · rw [changeOf?_of_not_share hf fun g hg => hshare ⟨g, hg⟩] at hchange
    cases hchange

theorem Snapshot.eq_of_sameName (h : b.check = .ok b) (hf : f ∈ b.files) (hg : g ∈ b.files)
    (hname : f.path.sameName g.path = true) : f = g := by
  have hself := Value.sameName_self ((check_eq_ok.mp h).2.2.1 g hg)
  have hfind := find?_of_sameName h hf hname
  rw [find?_of_sameName h hg hself] at hfind
  exact (Option.some.inj hfind).symm

theorem pathsOf_pairwise (hb : b.check = .ok b) (h : compareSnapshots b s = .ok c) (change : Change) :
    (c.pathsOf change).Pairwise fun p q => p.sameName q = false := by
  refine List.Pairwise.sublist (pathsOf_sublist h change) (List.pairwise_map.mpr ?_)
  exact (Snapshot.check_eq_ok.mp hb).2.2.2.imp fun hname => by rwa [Value.sameName_symm]

/-- Two groups have no path in common. -/
theorem pathsOf_disjoint (hb : b.check = .ok b) (h : compareSnapshots b s = .ok c) (hne : change ≠ change') :
    ∀ p ∈ c.pathsOf change, ∀ q ∈ c.pathsOf change', p.sameName q = false := by
  intro p hp q hq
  obtain ⟨f, _, hf, rfl, hchange⟩ := share_of_mem_pathsOf h hp
  obtain ⟨f', _, hf', rfl, hchange'⟩ := share_of_mem_pathsOf h hq
  by_contra hname
  obtain rfl := Snapshot.eq_of_sameName hb hf.1 hf'.1 (by simpa using hname)
  rw [hchange] at hchange'
  exact hne (Option.some.inj (Except.ok.inj hchange'))

end Files

/-! ### Both ways -/

/-- Every path that both snapshots have is in one group, nothing else is in any, no path is named twice, and each group is in
the order of the baseline. -/
structure Comparison.Partitions (c : Comparison) (b s : Snapshot) : Prop where
  shared : ∀ f g, b.Share s f g → ∃! change, f.path ∈ c.pathsOf change
  only : ∀ change, ∀ path ∈ c.pathsOf change, ∃ f g, b.Share s f g ∧ f.path = path
  once : (c.regression.files ++ c.improvement.files ++ c.unchanged).Pairwise fun p q => p.sameName q = false
  ordered : ∀ change, (c.pathsOf change).Sublist (b.files.map (·.path))

def Delta.amounts (d : Delta) : List Value := [d.totalIssues, d.highIssues, d.averageScore]

/-- The groups of the one comparison are the mirrored groups of the other, and its amounts have changed sides. -/
structure Comparison.Mirrors (c d : Comparison) : Prop where
  names : ∀ change, Value.SameNames (c.pathsOf change) (d.pathsOf change.mirror)
  worse : d.regression.amounts = c.improvement.amounts
  better : d.improvement.amounts = c.regression.amounts

/-- Two amounts that are not both above zero. -/
def Value.Exclusive (v w : Value) : Prop :=
  ∃ x y, v = .number x ∧ w = .number y ∧ ¬((0 : Number).lt x = true ∧ (0 : Number).lt y = true)

/-- Each amount is above zero on one side at most. -/
def Comparison.OneSided (c : Comparison) : Prop :=
  List.Forall₂ Value.Exclusive c.regression.amounts c.improvement.amounts

/-- How much worse the new metrics are: more issues, more severe ones, and a lower average. -/
def Metrics.losses (old new : Metrics) : List Value :=
  [.number (rise old.totalIssues new.totalIssues), .number (rise old.highIssues new.highIssues),
    .number (excess old.averageScore new.averageScore)]

section Mirrors

variable {b s : Snapshot} {c d : Comparison} {change : Change}

/-- What got better is what would be worse the other way round. -/
theorem compareSnapshots_losses (h : compareSnapshots b s = .ok c) :
    c.regression.amounts = b.metrics.losses s.metrics ∧ c.improvement.amounts = s.metrics.losses b.metrics := by
  simp only [compareSnapshots, bind_eq_ok, pure_eq_ok, Except.ok.injEq] at h
  obtain ⟨_, -, rfl⟩ := h
  exact ⟨rfl, rfl⟩

theorem exclusive_rise (m n : ℤ) : Value.Exclusive (.number (rise m n)) (.number (rise n m)) := by
  refine ⟨_, _, rfl, rfl, ?_⟩
  rw [lt_rise (by decide +kernel), lt_rise (by decide +kernel)]
  rintro ⟨h, h'⟩
  have hlt : 0 < n - m := Number.int_lt_int.mp h
  have hlt' : 0 < m - n := Number.int_lt_int.mp h'
  omega

theorem exclusive_excess {x y : Binary64} {p q : ℚ} (hx : x.place = .point p) (hy : y.place = .point q) :
    Value.Exclusive (.number (excess x y)) (.number (excess y x)) := by
  have hzero : (0 : Number).lt (.real (.zero false)) = false := by decide +kernel
  refine ⟨_, _, rfl, rfl, ?_⟩
  rcases le_total p q with h | h
  · rw [excess_eq_zero hx hy h, hzero]
    simp
  · rw [excess_eq_zero hy hx h, hzero]
    simp

/-- Every path of a group has its counterpart in the mirrored group. -/
theorem exists_mem_mirror (hb : b.Rated) (hs : s.Rated) (hc : compareSnapshots b s = .ok c)
    (hd : compareSnapshots s b = .ok d) {p : Value} (hp : p ∈ c.pathsOf change) :
    ∃ q ∈ d.pathsOf change.mirror, q.sameName p = true := by
  obtain ⟨f, g, hshare, rfl, hchange⟩ := share_of_mem_pathsOf hc hp
  obtain ⟨other, hother, hmirror⟩ := hshare.changes hb hs
  rw [hchange, Except.ok.injEq, Option.some.injEq] at hother
  rw [← hother] at hmirror
  exact ⟨g.path, (mem_pathsOf_iff hs.check hd hshare.2.1 _).mpr hmirror, hshare.2.2⟩

theorem Snapshot.Rated.partitions (hb : b.Rated) (hs : s.Rated) (hc : compareSnapshots b s = .ok c) :
    c.Partitions b s := by
  have hpairwise := pathsOf_pairwise hb.check hc
  refine ⟨fun f g hshare => ?_, fun change path hpath => ?_, ?_, pathsOf_sublist hc⟩
  · obtain ⟨change, hchange, -⟩ := hshare.changes hb hs
    refine ⟨change, (mem_pathsOf_iff hb.check hc hshare.1 change).mpr hchange, fun other hother => ?_⟩
    have hother := (mem_pathsOf_iff hb.check hc hshare.1 other).mp hother
    rw [hchange] at hother
    exact (Option.some.inj (Except.ok.inj hother)).symm
  · obtain ⟨f, g, hshare, hpath, -⟩ := share_of_mem_pathsOf hc hpath
    exact ⟨f, g, hshare, hpath⟩
  · refine List.pairwise_append.mpr ⟨List.pairwise_append.mpr ⟨hpairwise .regressed, hpairwise .improved, ?_⟩,
      hpairwise .unchanged, fun p hp => ?_⟩
    · exact pathsOf_disjoint hb.check hc (show Change.regressed ≠ .improved by decide)
    · rcases List.mem_append.mp hp with hp | hp
      · exact pathsOf_disjoint hb.check hc (show Change.regressed ≠ .unchanged by decide) p hp
      · exact pathsOf_disjoint hb.check hc (show Change.improved ≠ .unchanged by decide) p hp

theorem Snapshot.Rated.mirrors (hb : b.Rated) (hs : s.Rated) (hc : compareSnapshots b s = .ok c)
    (hd : compareSnapshots s b = .ok d) : c.Mirrors d := by
  obtain ⟨hworse, hbetter⟩ := compareSnapshots_losses hc
  obtain ⟨hworse', hbetter'⟩ := compareSnapshots_losses hd
  refine ⟨fun change => ?_, by rw [hworse', hbetter], by rw [hbetter', hworse]⟩
  refine Value.sameNames_of_forall (pathsOf_pairwise hb.check hc change) (pathsOf_pairwise hs.check hd _) ?_ ?_
  · intro p hp
    obtain ⟨q, hq, hname⟩ := exists_mem_mirror hb hs hc hd hp
    exact ⟨q, hq, by rwa [Value.sameName_symm]⟩
  · intro q hq
    obtain ⟨p, hp, hname⟩ := exists_mem_mirror hs hb hd hc hq
    exact ⟨p, by rwa [Change.mirror_mirror] at hp, hname⟩

theorem Snapshot.Rated.oneSided (hb : b.Rated) (hs : s.Rated) (hc : compareSnapshots b s = .ok c) : c.OneSided := by
  obtain ⟨hworse, hbetter⟩ := compareSnapshots_losses hc
  obtain ⟨p, hp⟩ := hb.average
  obtain ⟨q, hq⟩ := hs.average
  rw [Comparison.OneSided, hworse, hbetter]
  exact .cons (exclusive_rise _ _) (.cons (exclusive_rise _ _) (.cons (exclusive_excess hp hq) .nil))

/-- Two snapshots with scores from 0 to 100 and finite averages can be compared both ways.  A comparison puts the paths that
both have into its groups, each into one, in the order of its baseline; the other way round the files that regressed have
improved, the same files are unchanged, and the amounts change sides; and no amount is above zero on both sides.  Where the
paths are texts, the mirrored groups hold the same texts in some order. -/
theorem compares_both_ways (hb : b.Rated) (hs : s.Rated) : ∃ c d, compareSnapshots b s = .ok c ∧
    compareSnapshots s b = .ok d ∧ c.Partitions b s ∧ c.Mirrors d ∧ c.OneSided ∧
      ((∀ f ∈ b.files, ∃ p, f.path = .text p) → ∀ change, (c.pathsOf change).Perm (d.pathsOf change.mirror)) := by
  obtain ⟨c, hc⟩ := hb.compares hs
  obtain ⟨d, hd⟩ := hs.compares hb
  have hmirrors := hb.mirrors hs hc hd
  refine ⟨c, d, hc, hd, hb.partitions hs hc, hmirrors, hb.oneSided hs hc, fun htexts change => ?_⟩
  refine (hmirrors.names change).perm fun p hp => ?_
  obtain ⟨f, _, hshare, rfl, -⟩ := share_of_mem_pathsOf hc hp
  exact htexts f hshare.1

def Snapshot.ofScores (issues high : ℤ) (average : Binary64) (scores : List (String × Number)) : Snapshot where
  id := "s"
  timestamp := 1
  branch := "main"
  commit := "c"
  metrics := ⟨scores.length, issues, high, 0, 0, average, .ofInt 100, .ofInt 100, .ofInt 100⟩
  files := scores.map fun e => ⟨.text e.1, 0, 0, 0, 0, .number e.2, .text "A", .full⟩
  environment := ⟨.text "3", .text "1", .text "linux"⟩

theorem Snapshot.rated_ofScores {issues high : ℤ} {average : Binary64} {scores : List (String × Number)} {q : ℚ}
    (hnodup : (scores.map Prod.fst).Nodup) (hscores : ∀ e ∈ scores, e.2.isPercent = true)
    (haverage : average.place = .point q) : (ofScores issues high average scores).Rated := by
  refine ⟨check_eq_ok.mpr ⟨rfl, ?_, ?_, ?_⟩, ?_, q, haverage⟩
  · simp [ofScores]
  · exact List.forall_mem_map.mpr fun e _ => rfl
  · exact List.pairwise_map.mpr ((List.pairwise_map.mp hnodup).imp fun hne => beq_eq_false_iff_ne.mpr (Ne.symm hne))
  · exact List.forall_mem_map.mpr fun e he => ⟨e.2, rfl, hscores e he⟩

/-- Two snapshots that have three paths in common, in different orders: one file regressed, one improved, and one moved by
less than the tolerance. -/
theorem compares_both_ways_reordered :
    let b := Snapshot.ofScores 3 1 (.ofInt 55) [("a.ts", 90), ("b.ts", .real (.ofInt 50)), ("c.ts", 70), ("d.ts", 10)]
    let s := Snapshot.ofScores 7 0 (.ofRatio false 215 4)
      [("c.ts", 80), ("b.ts", .real (.ofRatio false 50005 1000)), ("a.ts", 80), ("e.ts", 5)]
    b.Rated ∧ s.Rated ∧ ∃ c d, compareSnapshots b s = .ok c ∧ compareSnapshots s b = .ok d ∧ c.Partitions b s ∧
      c.Mirrors d ∧ c.OneSided ∧ ∀ change, (c.pathsOf change).Perm (d.pathsOf change.mirror) := by
  intro b s
  have hb : b.Rated := Snapshot.rated_ofScores (q := 55) (by decide) (by decide +kernel) (by decide +kernel)
  have hs : s.Rated := Snapshot.rated_ofScores (q := 215 / 4) (by decide) (by decide +kernel) (by decide +kernel)
  obtain ⟨c, d, hc, hd, hpartitions, hmirrors, honce, htexts⟩ := compares_both_ways hb hs
  exact ⟨hb, hs, c, d, hc, hd, hpartitions, hmirrors, honce, htexts (List.forall_mem_map.mpr fun e _ => ⟨e.1, rfl⟩)⟩

end Mirrors

end ScoreGate
