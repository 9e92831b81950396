import ScoreGate.Proofs.Averages
import ScoreGate.Proofs.Grading

/-!
# The letter of a project

The total of a project is the mean of its files, rounded to a whole number, while its letter is that of the mean as it was
before.  The two belong together unless the mean lies in the half point below a least total: there the total reaches it and
the mean does not, and the letter is that of one point less.

* `Binary64.exists_units`: numbers of some size lie on a grid.
* `Number.le_roundHalfUp_iff`: which whole numbers a rounded mean reaches.
* `Grade.of_congr`: totals that reach the same least totals have the same letter.
* `ProjectScore.Grades`: what a project score says of a mean; `projectScore_grades`.
-/

namespace ScoreGate

/-! ### Means that are rounded -/

namespace Binary64

variable {x : Binary64} {q : ℚ}

/-- From a power of two on, every number is a whole multiple of the unit that the numbers there are apart. -/
theorem exists_units {k : ℤ} (hx : x.place = .point q) (hk : 2 ^ k ≤ q) : ∃ j : ℕ, q = j * 2 ^ (k - 52) := by
  obtain ⟨a, m, e, hc, rfl, rfl⟩ := eq_finite_of_place hx
  obtain rfl : a = false := by
    by_contra ha
    have hneg : finiteValue a m e = -finiteValue false m e := by
      rw [← finiteValue_not, Bool.eq_true_of_not_eq_false ha, Bool.not_false]
    have hpos : (0 : ℚ) < 2 ^ k := by positivity
    have hnonneg : 0 ≤ finiteValue false m e := by
      rw [finiteValue_eq]
      positivity
    linarith
  rw [finiteValue_eq] at hk ⊢
  have he : k - 52 ≤ e := by
    have h53 : (m : ℚ) < 2 ^ (53 : ℤ) := by
      rw [← maxSignificand_eq]
      exact_mod_cast hc.1
    have hlt : (2 : ℚ) ^ k < 2 ^ (53 + e) :=
      calc (2 : ℚ) ^ k ≤ m * 2 ^ e := hk
        _ < 2 ^ (53 : ℤ) * 2 ^ e := by gcongr
        _ = 2 ^ (53 + e) := (zpow_add₀ (by norm_num) _ _).symm
    have hexp := (zpow_lt_zpow_iff_right₀ (by norm_num : (1 : ℚ) < 2)).mp hlt
    omega
  refine ⟨m * 2 ^ (e - (k - 52)).toNat, ?_⟩
  rw [Nat.cast_mul, Nat.cast_pow, Nat.cast_ofNat, ← zpow_natCast, Int.toNat_of_nonneg (by omega), mul_assoc,
    ← zpow_add₀ (by norm_num), sub_add_cancel]

/-- Whole numbers up to 100 are numbers. -/
theorem place_whole : ∀ n ∈ List.range 101, (ofRatio false n 1).place = .point n := by decide +kernel

/-- One unit below a whole number the nearest number is still below it. -/
theorem place_below : ∀ n ∈ List.range' 2 99,
    (ofRatio false (n * 2 ^ (52 - (n - 1).log2) - 1) (2 ^ (52 - (n - 1).log2))).place.lt (.point n) = true := by
  decide +kernel

theorem ofRat_of_nonneg (h : 0 ≤ q) : ofRat q = ofRatio false q.num.natAbs q.den ∧ (q.num.natAbs : ℚ) / q.den = q :=
  ⟨by rw [ofRat, decide_eq_false (not_lt.mpr h)], by rw [natAbs_num_div_den, abs_of_nonneg h]⟩

/-- A half less than a whole number, and a number is at least one unit less. -/
theorem add_half_le {n : ℕ} (h2 : 2 ≤ n) (h100 : n ≤ 100) (hx : x.place = .point q) (hq : q < n - 1 / 2) :
    q + 1 / 2 ≤ (n * 2 ^ (52 - (n - 1).log2) - 1 : ℕ) / (2 ^ (52 - (n - 1).log2) : ℕ) := by
  have hlow : 2 ^ (n - 1).log2 ≤ n - 1 := Nat.log2_self_le (by omega)
  have hlog : (n - 1).log2 < 7 := (Nat.log2_lt (by omega)).mpr (by omega)
  generalize (n - 1).log2 = k at hlow hlog
  have hunit : (0 : ℚ) < 2 ^ (52 - k) := by positivity
  have hone : 1 ≤ n * 2 ^ (52 - k) := Nat.mul_pos (by omega) (by positivity)
  rw [le_div_iff₀ (by exact_mod_cast hunit), Nat.cast_sub hone]
  push_cast
  by_cases hk : (2 : ℚ) ^ (k : ℤ) ≤ q
  · -- both are whole multiples of the unit, and they differ
    obtain ⟨j, hj⟩ := exists_units hx hk
    have hpow : (2 : ℚ) ^ ((k : ℤ) - 52) * 2 ^ (52 - k) = 1 := by
      rw [← zpow_natCast, ← zpow_add₀ (by norm_num), Nat.cast_sub (by omega)]
      simp
    have hscaled : q * 2 ^ (52 - k) = j := by rw [hj, mul_assoc, hpow, mul_one]
    have htwo : (2 : ℚ) ^ (52 - k) = 2 * 2 ^ (51 - k) := by
      rw [show 52 - k = 51 - k + 1 by omega, pow_succ]
      ring
    have hlt : (j : ℚ) < (2 * n - 1) * 2 ^ (51 - k) := by
      rw [← hscaled]
      nlinarith
    have hle : (j : ℚ) + 1 ≤ (2 * n - 1) * 2 ^ (51 - k) := by
      have hint : (j : ℤ) + 1 ≤ (2 * n - 1) * 2 ^ (51 - k) := by exact_mod_cast hlt
      exact_mod_cast hint
    rw [add_mul, hscaled]
    nlinarith
  · -- there is no need of a grid, a half is left
    rw [zpow_natCast, not_le] at hk
    have hn : (2 : ℚ) ^ k ≤ n - 1 := by
      have : ((2 ^ k : ℕ) : ℚ) ≤ (n - 1 : ℕ) := by exact_mod_cast hlow
      rwa [Nat.cast_sub (by omega), Nat.cast_pow, Nat.cast_ofNat, Nat.cast_one] at this
    have hbig : (2 : ℚ) ≤ 2 ^ (52 - k) := by
      calc (2 : ℚ) = 2 ^ 1 := (pow_one 2).symm
        _ ≤ 2 ^ (52 - k) := pow_le_pow_right₀ (by norm_num) (by omega)
    nlinarith

/-- With a half added a number reaches a whole number exactly if it was at most a half below. -/
theorem point_le_add_half {n : ℕ} (h2 : 2 ≤ n) (h100 : n ≤ 100) (hx : x.place = .point q) (h0 : 0 ≤ q) :
    (Place.point n).le (ofRat (q + 1 / 2)).place = true ↔ (n : ℚ) - 1 / 2 ≤ q := by
  obtain ⟨hnearest, hratio⟩ := ofRat_of_nonneg (show 0 ≤ q + 1 / 2 by linarith)
  rw [hnearest]
  constructor
  · intro hle
    by_contra hq
    have hhalf := add_half_le h2 h100 hx (not_le.mp hq)
    have hbelow := place_below n (List.mem_range'_1.mpr ⟨h2, by omega⟩)
    rw [← hratio] at hhalf
    have hlt := Place.lt_of_le_of_lt (ofRatio_mono (q + 1 / 2).den_pos (by positivity) hhalf) hbelow
    rw [Place.not_lt_of_le hle] at hlt
    cases hlt
  · intro hq
    rw [← place_whole n (List.mem_range.mpr (by omega))]
    refine ofRatio_mono one_pos (q + 1 / 2).den_pos ?_
    rw [hratio, Nat.cast_one, div_one]
    linarith

end Binary64

namespace Number

variable {x : Binary64} {q : ℚ} {t : ℤ}

theorem roundHalfUp_eq_ok (hx : x.place = .point q) (h : (Number.real x).roundHalfUp = .ok t) :
    ∃ v, (Binary64.ofRat (q + 1 / 2)).place = .point v ∧ t = ⌊v⌋ := by
  have hhalf : (Binary64.ofRatio true 1 2).place = .point (-(1 / 2)) := by decide +kernel
  have hsum : x.add (.ofRatio false 1 2) = x.sub (.ofRatio true 1 2) := rfl
  have hplace : (x.add (.ofRatio false 1 2)).place = (Binary64.ofRat (q + 1 / 2)).place := by
    rw [hsum, Binary64.place_sub hx hhalf, sub_neg_eq_add]
  simp only [roundHalfUp, toReal, ok_bind] at h
  rw [← hplace]
  rcases hadd : x.add (.ofRatio false 1 2) with _ | a | ⟨a, m, e, hc⟩
  · rw [hadd] at h
    cases h
  · rw [hadd] at h
    cases h
  · rw [hadd] at h
    exact ⟨_, rfl, (Except.ok.inj h).symm⟩

/-- Which whole numbers a rounded mean reaches. -/
theorem le_roundHalfUp_iff {n : ℕ} (h2 : 2 ≤ n) (h100 : n ≤ 100) (hx : x.place = .point q) (h0 : 0 ≤ q)
    (h : (Number.real x).roundHalfUp = .ok t) : (n : ℤ) ≤ t ↔ (n : ℚ) - 1 / 2 ≤ q := by
  obtain ⟨v, hv, rfl⟩ := roundHalfUp_eq_ok hx h
  rw [← Binary64.point_le_add_half h2 h100 hx h0, hv, Int.le_floor, Place.le, decide_eq_true_eq, Int.cast_natCast]

/-- A rounded mean lies where the mean lies. -/
theorem roundHalfUp_within (hx : x.place = .point q) (h0 : 0 ≤ q) (h1 : q ≤ 100)
    (h : (Number.real x).roundHalfUp = .ok t) : 0 ≤ t ∧ t ≤ 100 := by
  obtain ⟨v, hv, rfl⟩ := roundHalfUp_eq_ok hx h
  have hlow : (Binary64.ofRat 0).place = .point 0 := Binary64.place_zero false
  have hhigh : (Binary64.ofRat (201 / 2)).place = .point (201 / 2) := by decide +kernel
  have hfrom := Binary64.ofRat_mono (show 0 ≤ q + 1 / 2 by linarith)
  have hto := Binary64.ofRat_mono (show q + 1 / 2 ≤ 201 / 2 by linarith)
  rw [hlow, hv, Place.le, decide_eq_true_eq] at hfrom
  rw [hhigh, hv, Place.le, decide_eq_true_eq] at hto
  refine ⟨Int.floor_nonneg.mpr hfrom, Int.le_of_lt_add_one (Int.floor_lt.mpr ?_)⟩
  push_cast
  linarith

theorem roundHalfUp_eq_floor (hx : x.place = .point q) (h0 : 1 / 2 ≤ q) (h1 : q ≤ 100)
    (h : (Number.real x).roundHalfUp = .ok t) : t = ⌊q + 1 / 2⌋ := by
  have hreach : ∀ n : ℕ, 2 ≤ n → n ≤ 100 → ((n : ℤ) ≤ t ↔ (n : ℚ) - 1 / 2 ≤ q) := fun n h2 h100 =>
    le_roundHalfUp_iff h2 h100 hx (by linarith) h
  obtain ⟨-, ht⟩ := roundHalfUp_within hx (by linarith) h1 h
  -- the sum is rounded before its whole part is taken, but rounding does not take it below 1
  have hone : 1 ≤ t := by
    obtain ⟨v, hv, rfl⟩ := roundHalfUp_eq_ok hx h
    have hplace : (Binary64.ofRat 1).place = .point 1 := by decide +kernel
    have hmono := Binary64.ofRat_mono (show 1 ≤ q + 1 / 2 by linarith)
    rw [hplace, hv, Place.le, decide_eq_true_eq] at hmono
    exact Int.le_floor.mpr (by exact_mod_cast hmono)
  symm
  rw [Int.floor_eq_iff]
  obtain ⟨n, rfl⟩ := Int.eq_ofNat_of_zero_le (by omega : 0 ≤ t)
  constructor
  · rcases (by omega : n = 1 ∨ 2 ≤ n) with rfl | h2
    · push_cast
      linarith
    · have hq := (hreach n h2 (by omega)).mp le_rfl
      push_cast
      linarith
  · rcases (by omega : n = 100 ∨ n + 1 ≤ 100) with rfl | h100
    · push_cast
      linarith
    · have hq := (not_congr (hreach (n + 1) (by omega) h100)).mp (by push_cast; omega)
      push_cast at hq ⊢
      linarith

end Number

/-! ### Letters -/

namespace Grade

/-- Totals that reach the same least totals have the same letter. -/
theorem of_congr {x y : Number} (h : ∀ e ∈ cutoffs, (Number.int e.1).le x = (Number.int e.1).le y) : of x = of y := by
  rw [of, of, List.find?_congr h]

/-- Least totals lie where rounding does nothing unforeseen. -/
theorem cutoffs_within : ∀ e ∈ cutoffs, 2 ≤ e.1 ∧ e.1 + 1 ≤ 100 := by decide

/-- One point less than a least total has the next letter. -/
theorem rank_below : ∀ e ∈ cutoffs, (of (.int (e.1 - 1))).rank = (of (.int e.1)).rank + 1 := by decide +kernel

section Means

variable {x : Binary64} {q : ℚ} {t : ℤ}

/-- A least total is reached by a mean. -/
theorem reaches_mean (hx : x.place = .point q) (n : ℕ) : (Number.int n).le (.real x) = true ↔ (n : ℚ) ≤ q := by
  rw [Number.le, Number.place, Number.place, hx, Place.le, decide_eq_true_eq]
  exact Iff.rfl

/-- A mean in the half point below a least total is rounded to it, and has the letter of one point less. -/
theorem of_half_below (hx : x.place = .point q) (h0 : 0 ≤ q) (h : (Number.real x).roundHalfUp = .ok t) {e : ℕ × Grade}
    (he : e ∈ cutoffs) (hlow : (e.1 : ℚ) - 1 / 2 ≤ q) (hhigh : q < e.1) :
    of (.real x) = of (.int (t - 1)) ∧ (of (.real x)).rank = (of (.int t)).rank + 1 := by
  obtain ⟨h2, h100⟩ := cutoffs_within e he
  have ht : t = e.1 := by
    have hreach := (Number.le_roundHalfUp_iff h2 (by omega) hx h0 h).mpr hlow
    have hmiss := (not_congr (Number.le_roundHalfUp_iff (n := e.1 + 1) (by omega) h100 hx h0 h)).mpr (by
      push_cast
      linarith)
    push_cast at hmiss
    omega
  have hless : of (.real x) = of (.int (t - 1)) := by
    refine of_congr fun d _ => Bool.eq_iff_iff.mpr ?_
    rw [reaches_mean hx, Number.int_le_int, ht]
    constructor
    · intro hd
      have hlt : d.1 < e.1 := by exact_mod_cast hd.trans_lt hhigh
      omega
    · intro hd
      have hle : (d.1 : ℚ) + 1 ≤ e.1 := by exact_mod_cast (by omega : d.1 + 1 ≤ e.1)
      linarith
  exact ⟨hless, by rw [hless, ht, rank_below e he]⟩

/-- A mean has the letter of its total unless it lies in the half point below a least total. -/
theorem of_mean_iff (hx : x.place = .point q) (h0 : 0 ≤ q) (h : (Number.real x).roundHalfUp = .ok t) :
    of (.real x) = of (.int t) ↔ ∀ e ∈ cutoffs, ¬((e.1 : ℚ) - 1 / 2 ≤ q ∧ q < e.1) := by
  constructor
  · rintro heq e he ⟨hlow, hhigh⟩
    have hrank := (of_half_below hx h0 h he hlow hhigh).2
    rw [heq] at hrank
    omega
  · intro hnone
    refine of_congr fun e he => Bool.eq_iff_iff.mpr ?_
    obtain ⟨h2, h100⟩ := cutoffs_within e he
    rw [reaches_mean hx, Number.int_le_int, Number.le_roundHalfUp_iff h2 (by omega) hx h0 h]
    constructor
    · intro hle
      linarith
    · intro hle
      exact not_lt.mp fun hlt => hnone e he ⟨hle, hlt⟩

end Means

end Grade

/-! ### Projects -/

/-- What a project score says of the mean of its files, which lies at `q`. -/
structure ProjectScore.Grades (x : Binary64) (q : ℚ) (p : ProjectScore) : Prop where
  total : 0 ≤ p.total ∧ p.total ≤ 100
  /-- the total is the mean rounded, a half upwards -/
  rounded : 1 / 2 ≤ q → p.total = ⌊q + 1 / 2⌋
  /-- the letter is that of the mean itself -/
  letter : p.grade = .of (.real x)
  /-- which is that of the total unless the mean lies in the half point below a least total -/
  agrees : p.grade = .of (.int p.total) ↔ ∀ e ∈ Grade.cutoffs, ¬((e.1 : ℚ) - 1 / 2 ≤ q ∧ q < e.1)
  /-- and there it is that of one point less, the next one -/
  below : p.grade ≠ .of (.int p.total) →
    p.grade = .of (.int (p.total - 1)) ∧ p.grade.rank = (Grade.of (.int p.total)).rank + 1

def totalsOf (as : List FileAnalysis) : List Value := as.map fun a => .number a.score.total.value

/-- Analyses with whole totals have a project score.  Its total is their mean rounded, and its letter is that of the mean as
it is, the number nearest to the exact one.  So the two contradict each other exactly if the mean lies in the half point
below a least total, and then the letter is the one after that of the total. -/
theorem projectScore_grades {as : List FileAnalysis} (hne : as ≠ []) (h : ∀ v ∈ totalsOf as, v.IsScore) :
    ∃ p x q, projectScore as = .ok p ∧ x = Binary64.ofRatio false (Value.wholeSum (totalsOf as)) as.length ∧
      x.place = .point q ∧ p.Grades x q := by
  rcases as with _ | ⟨a, as⟩
  · exact absurd rfl hne
  obtain ⟨x, q, hmean, hq, h0, h1⟩ := mean_within h
  obtain ⟨t, ht⟩ := Number.roundHalfUp_ok hq h0 h1
  obtain ⟨p, hp, rfl, hletter⟩ : ∃ p, projectScore (a :: as) = .ok p ∧ p.total = t ∧ p.grade = .of (.real x) := by
    have hmean' : mean ((a :: as).map fun a => .number a.score.total.value) = .ok x := hmean
    simp only [projectScore, hmean', ok_bind, ht, pure_eq_ok]
    exact ⟨_, rfl, rfl, rfl⟩
  have hnearest := (mean_eq_ok h (List.cons_ne_nil _ _)).1
  rw [hmean, Except.ok.injEq] at hnearest
  have hagrees : p.grade = .of (.int p.total) ↔ ∀ e ∈ Grade.cutoffs, ¬((e.1 : ℚ) - 1 / 2 ≤ q ∧ q < e.1) := by
    rw [hletter, Grade.of_mean_iff hq h0 ht]
  refine ⟨p, x, q, hp, by rw [hnearest, totalsOf, List.length_map], hq, ?_⟩
  exact {
    total := Number.roundHalfUp_within hq h0 h1 ht
    rounded := fun hhalf => Number.roundHalfUp_eq_floor hq hhalf h1 ht
    letter := hletter
    agrees := hagrees
    below := fun hother => by
      have hbelow := (not_congr hagrees).mp hother
      push Not at hbelow
      obtain ⟨e, he, hlow, hhigh⟩ := hbelow
      rw [hletter]
      exact Grade.of_half_below hq h0 ht he hlow hhigh }

/-- Two files with the totals 90 and 89. -/
def nearlyBest : List FileAnalysis :=
  [⟨"a.ts", [], .of [], ⟨.clamp 90, .aPlus, .full⟩, 1⟩, ⟨"b.ts", [], .of [], ⟨.clamp 89, .a, .full⟩, 1⟩]

/-- Their project has the total 90, which is an A+, and the letter A. -/
theorem projectScore_grades_half : ∃ p x q, projectScore nearlyBest = .ok p ∧ x.place = .point q ∧ p.Grades x q ∧
    p.total = 90 ∧ p.grade = .a ∧ Grade.of (.int p.total) = .aPlus := by
  have hscores : ∀ v ∈ totalsOf nearlyBest, v.IsScore := by
    simp only [totalsOf, nearlyBest, List.map_cons, List.map_nil, List.forall_mem_cons]
    exact ⟨Percent.isScore_clamp 90, Percent.isScore_clamp 89, by simp⟩
  obtain ⟨p, x, q, hp, -, hq, hgrades⟩ := projectScore_grades (show nearlyBest ≠ [] from List.cons_ne_nil _ _) hscores
  have hvalues : (projectScore nearlyBest).map (fun p => (p.total, p.grade)) = .ok (90, .a) := by decide +kernel
  rw [hp] at hvalues
  obtain ⟨htotal, hgrade⟩ := Prod.mk.inj (Except.ok.inj hvalues)
  refine ⟨p, x, q, hp, hq, hgrades, htotal, hgrade, ?_⟩
  rw [htotal]
  decide +kernel

end ScoreGate
