import ScoreGate.Proofs.Standstill

/-!
# Rounding keeps the order

Of two ratios the larger one has a nearest number at least as large, be it finite or an infinity.  Where both ratios are
rounded in the same units the quotients are in order; where the units differ, the number with the larger units is at
least as large as the largest with the smaller ones.

* `divEven_mono`: quotients rounded to natural numbers.
* `Binary64.place_ofRatio`: where the number nearest to a ratio lies.
* `Binary64.ofRat_mono`: the order of nearest numbers, of either sign.
* `Binary64.place_sub`: where a difference lies.
-/

namespace ScoreGate

variable {a b c d : ℕ}

/-! ### Rounded quotients -/

theorem divEven_mono (hb : 0 < b) (hd : 0 < d) (h : a * d ≤ c * b) : divEven a b ≤ divEven c d := by
  have hq : a / b ≤ c / d := by
    rw [Nat.le_div_iff_mul_le hd]
    refine Nat.le_of_mul_le_mul_right ?_ hb
    calc a / b * d * b = b * (a / b) * d := by ring
      _ ≤ a * d := Nat.mul_le_mul_right d (Nat.mul_div_le a b)
      _ ≤ c * b := h
  rcases hq.lt_or_eq with hlt | heq
  · calc divEven a b ≤ a / b + 1 := divEven_le a b
      _ ≤ c / d := hlt
      _ ≤ divEven c d := div_le_divEven c d
  · -- the whole parts are the same, so the remainders are in order
    have hab := Nat.div_add_mod a b
    have hcd := Nat.div_add_mod c d
    have hrest : a % b * d ≤ c % d * b := by
      have h1 : a * d = b * d * (c / d) + a % b * d := by rw [← heq]; nlinarith
      have h2 : c * b = b * d * (c / d) + c % d * b := by nlinarith
      omega
    have hhalf : b ≤ 2 * (a % b) → d ≤ 2 * (c % d) := by
      intro hle
      refine Nat.le_of_mul_le_mul_left ?_ hb
      nlinarith
    have hmore : b < 2 * (a % b) → d < 2 * (c % d) := by
      intro hlt
      refine Nat.lt_of_mul_lt_mul_left (a := b) ?_
      nlinarith
    simp only [divEven, heq]
    split_ifs <;> omega

theorem ratioLog2_mono (ha : 0 < a) (hb : 0 < b) (hc : 0 < c) (hd : 0 < d) (h : (a : ℚ) / b ≤ c / d) :
    ratioLog2 a b ≤ ratioLog2 c d := by
  have hlt := ((ratioLog2_bounds ha hb).1.trans h).trans_lt (ratioLog2_bounds hc hd).2
  have hexp := (zpow_lt_zpow_iff_right₀ (by norm_num : (1 : ℚ) < 2)).mp hlt
  omega

/-! ### The nearest number, before and after the carry -/

namespace Binary64

/-- The value of the number nearest to a ratio, where there is no bound. -/
def nearestValue (a b : ℕ) : ℚ := rounded a b (units a b) * 2 ^ units a b

theorem maxSignificand_eq_mul : ((maxSignificand : ℕ) : ℚ) = minSignificand * 2 := by
  norm_num [maxSignificand, minSignificand]

theorem nearestValue_nonneg (a b : ℕ) : 0 ≤ nearestValue a b := by
  rw [nearestValue]
  positivity

/-- In the same units the larger ratio is rounded to at least as much. -/
theorem rounded_mono (hb : 0 < b) (hd : 0 < d) (h : (a : ℚ) / b ≤ c / d) (e : ℤ) : rounded a b e ≤ rounded c d e := by
  obtain ⟨p, q, hq, hpq, hr⟩ := rounded_eq (a := a) hb e
  obtain ⟨p', q', hq', hpq', hr'⟩ := rounded_eq (a := c) hd e
  rw [hr, hr']
  refine divEven_mono hq hq' ?_
  have hle : (p : ℚ) / q ≤ p' / q' := by
    rw [hpq, hpq']
    gcongr
  rw [div_le_div_iff₀ (by exact_mod_cast hq) (by exact_mod_cast hq')] at hle
  exact_mod_cast hle

theorem nearestValue_mono (ha : 0 < a) (hb : 0 < b) (hc : 0 < c) (hd : 0 < d) (h : (a : ℚ) / b ≤ c / d) :
    nearestValue a b ≤ nearestValue c d := by
  have hlog := ratioLog2_mono ha hb hc hd h
  have hunits : units a b ≤ units c d := by
    rw [units, units]
    omega
  rcases hunits.lt_or_eq with hlt | heq
  · -- the units differ, so the larger number has a full significand
    have hfull : minSignificand ≤ rounded c d (units c d) := by
      refine (rounded_units hc hd).2.resolve_right ?_
      have : -1074 ≤ units a b := le_max_right _ _
      omega
    calc nearestValue a b ≤ maxSignificand * 2 ^ units a b := by
          rw [nearestValue]
          gcongr
          exact (rounded_units ha hb).1
      _ = minSignificand * 2 ^ (units a b + 1) := by rw [maxSignificand_eq_mul, zpow_add₀ (by norm_num)]; ring
      _ ≤ minSignificand * 2 ^ units c d := by
          gcongr
          · norm_num
          · omega
      _ ≤ nearestValue c d := by
          rw [nearestValue]
          gcongr
  · rw [nearestValue, nearestValue, heq]
    gcongr
    exact rounded_mono hb hd h _

/-- The carry does not change the value. -/
theorem nearest_value (a b : ℕ) : ((nearest a b).1 : ℚ) * 2 ^ (nearest a b).2 = nearestValue a b := by
  rw [nearest_eq, nearestValue]
  split_ifs with h
  · rw [h, zpow_add₀ (by norm_num), maxSignificand_eq_mul]
    ring
  · rfl

theorem finiteValue_eq (m : ℕ) (e : ℤ) : finiteValue false m e = m * 2 ^ e := by
  by_cases he : 0 ≤ e
  · simp only [finiteValue, ratio, if_pos he, Bool.false_eq_true, if_false]
    rw [Rat.mkRat_eq_div, Int.cast_natCast, Nat.cast_mul, two_zpow_toNat he, Nat.cast_one, div_one]
  · simp only [finiteValue, ratio, if_neg he, Bool.false_eq_true, if_false]
    rw [Rat.mkRat_eq_div, Int.cast_natCast, two_zpow_toNat (by omega), zpow_neg, div_inv_eq_mul]

/-- The nearest pair is in use exactly if its value is below the end. -/
theorem nearest_canonical_iff (ha : 0 < a) (hb : 0 < b) :
    Canonical (nearest a b).1 (nearest a b).2 ↔ nearestValue a b < 2 ^ (1024 : ℤ) := by
  obtain ⟨hlt, hexp, hfull⟩ := nearest_bounds ha hb
  rw [← nearest_value]
  generalize (nearest a b).1 = m at *
  generalize (nearest a b).2 = e at *
  constructor
  · rintro ⟨-, -, he, -⟩
    have h53 : (m : ℚ) < 2 ^ (53 : ℤ) := by
      rw [← maxSignificand_eq]
      exact_mod_cast hlt
    calc (m : ℚ) * 2 ^ e < 2 ^ (53 : ℤ) * 2 ^ e := by gcongr
      _ ≤ 2 ^ (53 : ℤ) * 2 ^ (971 : ℤ) := by
          gcongr
          norm_num
      _ = 2 ^ (1024 : ℤ) := by rw [← zpow_add₀ (by norm_num)]; norm_num
  · intro h
    refine ⟨hlt, hexp, ?_, hfull⟩
    -- with a larger exponent a full significand is at or above the end
    by_contra he
    have h52 : (2 : ℚ) ^ (52 : ℤ) ≤ m := by
      rw [← minSignificand_eq]
      exact_mod_cast hfull.resolve_right (by omega)
    refine absurd h (not_lt.mpr ?_)
    calc (2 : ℚ) ^ (1024 : ℤ) = 2 ^ (52 : ℤ) * 2 ^ (972 : ℤ) := by rw [← zpow_add₀ (by norm_num)]; norm_num
      _ ≤ 2 ^ (52 : ℤ) * 2 ^ e := by
          gcongr
          · norm_num
          · omega
      _ ≤ m * 2 ^ e := by gcongr

/-- The number nearest to a ratio lies at its value, or at the end where that is too large. -/
theorem place_ofRatio (ha : 0 < a) (hb : 0 < b) : (ofRatio false a b).place =
    if nearestValue a b < 2 ^ (1024 : ℤ) then .point (nearestValue a b) else .top := by
  have hratio : ofRatio false a b = pack false (nearest a b).1 (nearest a b).2 := if_neg (by omega)
  have hiff := nearest_canonical_iff ha hb
  rw [hratio, pack]
  split_ifs with h h' h'
  · rw [place, finiteValue_eq, nearest_value]
  · exact absurd (hiff.mp h) h'
  · exact absurd (hiff.mpr h') h
  · rfl

theorem place_zero (negative : Bool) : (zero negative).place = .point 0 := by
  cases negative <;> exact congrArg Place.point (Rat.zero_mkRat _)

theorem zero_le_ofRatio (a : ℕ) (hb : 0 < b) : (Place.point 0).le (ofRatio false a b).place = true := by
  rcases Nat.eq_zero_or_pos a with rfl | ha
  · rw [show ofRatio false 0 b = zero false from rfl, place_zero]
    rfl
  · rw [place_ofRatio ha hb]
    split_ifs
    · exact decide_eq_true (nearestValue_nonneg a b)
    · rfl

theorem ofRatio_mono (hb : 0 < b) (hd : 0 < d) (h : (a : ℚ) / b ≤ c / d) :
    (ofRatio false a b).place.le (ofRatio false c d).place = true := by
  rcases Nat.eq_zero_or_pos a with rfl | ha
  · rw [show ofRatio false 0 b = zero false from rfl, place_zero]
    exact zero_le_ofRatio c hd
  · have hc : 0 < c := by
      have hpos : (0 : ℚ) < c / d := lt_of_lt_of_le (by positivity) h
      rcases Nat.eq_zero_or_pos c with rfl | hc
      · simp at hpos
      · exact hc
    have hvalue := nearestValue_mono ha hb hc hd h
    rw [place_ofRatio ha hb, place_ofRatio hc hd]
    split_ifs with h₁ h₂ h₂
    · exact decide_eq_true hvalue
    · rfl
    · exact absurd (hvalue.trans_lt h₂) h₁
    · rfl

end Binary64

/-! ### Both signs -/

/-- The place on the other side of zero. -/
def Place.opposite : Place → Place
  | .undefined => .undefined
  | .bottom => .top
  | .point q => .point (-q)
  | .top => .bottom

theorem Place.opposite_le (p q : Place) : p.opposite.le q.opposite = q.le p := by
  cases p <;> cases q <;> simp [opposite, le]

namespace Binary64

theorem place_neg (x : Binary64) : x.neg.place = x.place.opposite := by
  rcases x with _ | a | ⟨a, m, e, h⟩
  · rfl
  · cases a <;> rfl
  · exact congrArg Place.point (finiteValue_not a m e)

theorem ofRatio_true (a b : ℕ) : ofRatio true a b = (ofRatio false a b).neg := by
  simp only [ofRatio, pack]
  split_ifs <;> rfl

theorem natAbs_num_div_den (p : ℚ) : (p.num.natAbs : ℚ) / p.den = |p| := by
  conv_rhs => rw [← Rat.num_div_den p]
  rw [abs_div, Nat.abs_cast, Nat.cast_natAbs, Int.cast_abs]

/-- Rounding keeps the order. -/
theorem ofRat_mono {p q : ℚ} (h : p ≤ q) : (ofRat p).place.le (ofRat q).place = true := by
  rw [ofRat, ofRat]
  by_cases hp : p < 0
  · by_cases hq : q < 0
    · rw [decide_eq_true hp, decide_eq_true hq, ofRatio_true, ofRatio_true, place_neg, place_neg, Place.opposite_le]
      refine ofRatio_mono q.den_pos p.den_pos ?_
      rw [natAbs_num_div_den, natAbs_num_div_den, abs_of_neg hp, abs_of_neg hq]
      exact neg_le_neg h
    · rw [decide_eq_true hp, decide_eq_false hq, ofRatio_true, place_neg]
      refine Place.le_trans (q := (Place.point 0).opposite) ?_ ?_
      · rw [Place.opposite_le]
        exact zero_le_ofRatio _ p.den_pos
      · rw [Place.opposite, neg_zero]
        exact zero_le_ofRatio _ q.den_pos
  · have hq : ¬q < 0 := fun hq => hp (h.trans_lt hq)
    rw [decide_eq_false hp, decide_eq_false hq]
    refine ofRatio_mono p.den_pos q.den_pos ?_
    rw [natAbs_num_div_den, natAbs_num_div_den, abs_of_nonneg (not_lt.mp hp), abs_of_nonneg (not_lt.mp hq)]
    exact h

/-- The difference of two finite numbers is the number nearest to the exact one. -/
theorem place_sub {x y : Binary64} {p q : ℚ} (hx : x.place = .point p) (hy : y.place = .point q) :
    (x.sub y).place = (ofRat (p - q)).place := by
  rcases x with _ | a | ⟨a, m, e, h⟩
  · cases hx
  · cases a <;> cases hx
  · rcases y with _ | b | ⟨b, n, f, h'⟩
    · cases hy
    · cases b <;> cases hy
    · obtain rfl := Place.point.inj hx
      obtain rfl := Place.point.inj hy
      simp only [sub, neg, add, finiteValue_not, ← sub_eq_add_neg]
      split_ifs with hzero
      · rw [hzero, place_zero, show ofRat 0 = zero false from rfl, place_zero]
      · rfl

end Binary64

end ScoreGate
