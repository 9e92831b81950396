import ScoreGate.Proofs.Nearest

/-!
# Shortest decimals

A number is written with the fewest decimal digits that read back as the number.  Seventeen digits always do: a decimal
with so many lies so near to the number that no other number is nearer.

* `Decimal.value`: the value of a decimal, which is all that reading looks at.
* `Binary64.nearest_of_near`: a ratio near a number is rounded to it.
* `Binary64.ofDecimal_shortest`: the shortest decimal reads back.
-/

namespace ScoreGate

variable {a b c d m : ℕ} {e : ℤ}

theorem ten_zpow_toNat {d : ℤ} (hd : 0 ≤ d) : ((Nat.pow 10 d.toNat : ℕ) : ℚ) = 10 ^ d := by
  rw [Nat.pow_eq, Nat.cast_pow, ← zpow_natCast, Int.toNat_of_nonneg hd]
  rfl

/-! ### Ratios of one value -/

namespace Binary64

/-- Rounding looks at the value of a ratio only. -/
theorem ofRatio_congr (negative : Bool) (hb : 0 < b) (hd : 0 < d) (h : (a : ℚ) / b = c / d) :
    ofRatio negative a b = ofRatio negative c d := by
  have hb' : (b : ℚ) ≠ 0 := by exact_mod_cast hb.ne'
  have hd' : (d : ℚ) ≠ 0 := by exact_mod_cast hd.ne'
  have hzero : a = 0 ↔ c = 0 := by
    rw [div_eq_div_iff hb' hd'] at h
    have h' : a * d = c * b := by exact_mod_cast h
    constructor
    · rintro rfl
      simpa [hb.ne'] using h'.symm
    · rintro rfl
      simpa [hd.ne'] using h'
  rcases Nat.eq_zero_or_pos a with ha | ha
  · rw [ofRatio, ofRatio, if_pos ha, if_pos (hzero.mp ha)]
  have hc : 0 < c := Nat.pos_of_ne_zero fun hc => ha.ne' (hzero.mpr hc)
  have hunits : units a b = units c d := by
    rw [units, units, le_antisymm (ratioLog2_mono ha hb hc hd h.le) (ratioLog2_mono hc hd ha hb h.ge)]
  have hrounded : rounded a b (units a b) = rounded c d (units a b) :=
    le_antisymm (rounded_mono hb hd h.le _) (rounded_mono hd hb h.ge _)
  have hnearest : nearest a b = nearest c d := by rw [nearest_eq, nearest_eq, hrounded, hunits]
  rw [ofRatio, ofRatio, if_neg ha.ne', if_neg hc.ne', hnearest]

end Binary64

def Decimal.value (d : Decimal) : ℚ := d.digits * 10 ^ d.exponent

/-- A decimal that is not far out of range. -/
def Decimal.InReach (d : Decimal) : Prop := 10 ^ (-400 : ℤ) ≤ d.value ∧ d.value ≤ 10 ^ (400 : ℤ)

theorem Decimal.InReach.digits_pos {d : Decimal} (h : d.InReach) : 0 < d.digits := by
  refine Nat.pos_of_ne_zero fun hzero => ?_
  have hlow := h.1
  rw [value, hzero, Nat.cast_zero, zero_mul] at hlow
  exact absurd hlow (not_le.mpr (by positivity))

namespace Binary64

/-- Reading a decimal that is not far out of range looks at its value only. -/
theorem ofDecimal_eq (negative : Bool) {d : Decimal} (h : d.InReach) (hb : 0 < b) (hratio : (a : ℚ) / b = d.value) :
    ofDecimal negative d.digits d.exponent = ofRatio negative a b := by
  have hpos := h.digits_pos
  have hpos' : (1 : ℚ) ≤ d.digits := by exact_mod_cast hpos
  obtain ⟨hlow, hhigh⟩ := h
  -- neither of the shortcuts for numbers far out of range is taken
  have htop : ¬400 < d.exponent := by
    intro hlt
    refine absurd hhigh (not_le.mpr ?_)
    calc (10 : ℚ) ^ (400 : ℤ) < 10 ^ d.exponent := zpow_lt_zpow_right₀ (by norm_num) hlt
      _ = 1 * 10 ^ d.exponent := (one_mul _).symm
      _ ≤ d.value := mul_le_mul_of_nonneg_right hpos' (by positivity)
  have hbottom : ¬d.exponent + (d.digits.log2 / 3 + 1 : ℕ) < -400 := by
    intro hlt
    refine absurd hlow (not_le.mpr ?_)
    have hdigits : d.digits < 10 ^ (d.digits.log2 / 3 + 1) :=
      calc d.digits < 2 ^ (d.digits.log2 + 1) := Nat.lt_log2_self
        _ ≤ 2 ^ (3 * (d.digits.log2 / 3 + 1)) := Nat.pow_le_pow_right (by norm_num) (by omega)
        _ = 8 ^ (d.digits.log2 / 3 + 1) := by rw [pow_mul]; norm_num
        _ ≤ 10 ^ (d.digits.log2 / 3 + 1) := Nat.pow_le_pow_left (by norm_num) _
    have hdigits' : (d.digits : ℚ) < 10 ^ ((d.digits.log2 / 3 + 1 : ℕ) : ℤ) := by
      rw [zpow_natCast]
      exact_mod_cast hdigits
    calc d.value < 10 ^ ((d.digits.log2 / 3 + 1 : ℕ) : ℤ) * 10 ^ d.exponent :=
          mul_lt_mul_of_pos_right hdigits' (by positivity)
      _ = 10 ^ (d.exponent + (d.digits.log2 / 3 + 1 : ℕ)) := by rw [← zpow_add₀ (by norm_num), add_comm]
      _ ≤ 10 ^ (-400 : ℤ) := zpow_le_zpow_right₀ (by norm_num) hlt.le
  rw [ofDecimal, if_neg hpos.ne']
  simp only
  rw [if_neg htop, if_neg hbottom]
  split_ifs with hexp
  · refine ofRatio_congr negative one_pos hb ?_
    rw [hratio, Decimal.value, Nat.cast_mul, ten_zpow_toNat hexp, Nat.cast_one, div_one]
  · refine ofRatio_congr negative (Nat.pow_pos (by norm_num)) hb ?_
    rw [hratio, Decimal.value, ten_zpow_toNat (by omega), zpow_neg, div_inv_eq_mul]

theorem exists_ratio {x : ℚ} (hx : 0 ≤ x) : ∃ a b : ℕ, 0 < b ∧ (a : ℚ) / b = x :=
  ⟨x.num.natAbs, x.den, x.den_pos, by rw [natAbs_num_div_den, abs_of_nonneg hx]⟩

theorem ofDecimal_congr (negative : Bool) {d d' : Decimal} (h : d.InReach) (hvalue : d.value = d'.value) :
    ofDecimal negative d.digits d.exponent = ofDecimal negative d'.digits d'.exponent := by
  obtain ⟨a, b, hb, hratio⟩ := exists_ratio (le_trans (by positivity) h.1)
  have h' : d'.InReach := by
    rwa [Decimal.InReach, ← hvalue]
  rw [ofDecimal_eq negative h hb hratio, ofDecimal_eq negative h' hb (hratio.trans hvalue)]

/-- The sign of a decimal is that of the number. -/
theorem ofDecimal_true (digits : ℕ) (exponent : ℤ) :
    ofDecimal true digits exponent = (ofDecimal false digits exponent).neg := by
  simp only [ofDecimal]
  split_ifs
  · rfl
  · rfl
  · rfl
  · exact ofRatio_true _ _
  · exact ofRatio_true _ _

/-! ### Ratios near a number -/

/-- A quotient near a natural number is rounded to it. -/
theorem divEven_of_near {p q k : ℕ} (hlow : (2 * k - 1 : ℤ) * q < 2 * p) (hhigh : (2 * p : ℤ) < (2 * k + 1) * q) :
    divEven p q = k := by
  have hq : 0 < q := by
    refine Nat.pos_of_ne_zero fun hzero => ?_
    rw [hzero, Nat.cast_zero, mul_zero] at hlow hhigh
    exact lt_asymm hlow hhigh
  have hsplit := Nat.div_add_mod p q
  have hrest := Nat.mod_lt p hq
  simp only [divEven]
  generalize p / q = n at *
  generalize p % q = r at *
  have hp : (p : ℤ) = q * n + r := by exact_mod_cast hsplit.symm
  have hq' : (0 : ℤ) < q := by exact_mod_cast hq
  rw [hp] at hlow hhigh
  -- the whole part is the number, or one less
  have hle : n ≤ k := by
    by_contra hlt
    have hmore : ((k : ℤ) + 1) * q ≤ n * q := mul_le_mul_of_nonneg_right (by omega) hq'.le
    linarith [Int.natCast_nonneg r]
  have hge : k ≤ n + 1 := by
    by_contra hlt
    have hless : (n + 2 : ℤ) * q ≤ k * q := mul_le_mul_of_nonneg_right (by omega) hq'.le
    linarith
  rcases hle.lt_or_eq with hlt | rfl
  · obtain rfl : k = n + 1 := by omega
    have hhalf : (q : ℤ) < 2 * r := by
      push_cast at hlow
      linarith
    rw [if_neg (by omega), if_pos (by omega)]
  · have hhalf : 2 * (r : ℤ) < q := by linarith
    rw [if_pos (by omega)]

/-- A ratio near a whole number of units is rounded to it; with 53 bits there is a carry. -/
theorem nearest_of_units (k : ℕ) (unit : ℤ) (ha : 0 < a) (hb : 0 < b) (hunit : -1074 ≤ unit)
    (hfull : (2 : ℚ) ^ (52 + unit) ≤ a / b ∨ unit = -1074) (hbits : (a : ℚ) / b < 2 ^ (53 + unit))
    (hlow : ((2 * k - 1 : ℤ) : ℚ) * 2 ^ unit < 2 * (a / b)) (hhigh : 2 * ((a : ℚ) / b) < ((2 * k + 1 : ℤ) : ℚ) * 2 ^ unit) :
    nearest a b = if k = maxSignificand then (minSignificand, unit + 1) else (k, unit) := by
  obtain ⟨hlog, hlog'⟩ := ratioLog2_bounds ha hb
  -- the unit is told by the whole logarithm, or is the smallest there is
  have hunits : units a b = unit := by
    have hlt := (zpow_lt_zpow_iff_right₀ (by norm_num : (1 : ℚ) < 2)).mp (hlog.trans_lt hbits)
    rw [units]
    rcases hfull with hfull | rfl
    · have hgt := (zpow_lt_zpow_iff_right₀ (by norm_num : (1 : ℚ) < 2)).mp (hfull.trans_lt hlog')
      omega
    · omega
  have hrounded : rounded a b unit = k := by
    obtain ⟨p, q, hq, hratio, hr⟩ := rounded_eq (a := a) hb unit
    have hpow : (0 : ℚ) < 2 ^ unit := by positivity
    have hq' : (0 : ℚ) < q := by exact_mod_cast hq
    rw [hr]
    have hunits' : (p : ℚ) * 2 ^ unit = a / b * q := by
      rw [div_eq_div_iff hq'.ne' hpow.ne'] at hratio
      exact hratio
    refine divEven_of_near ?_ ?_
    · have hcast : ((2 * k - 1 : ℤ) : ℚ) * q < 2 * p := by
        refine lt_of_mul_lt_mul_right ?_ hpow.le
        linarith [mul_lt_mul_of_pos_right hlow hq']
      exact_mod_cast hcast
    · have hcast : (2 * p : ℚ) < ((2 * k + 1 : ℤ) : ℚ) * q := by
        refine lt_of_mul_lt_mul_right ?_ hpow.le
        linarith [mul_lt_mul_of_pos_right hhigh hq']
      exact_mod_cast hcast
  rw [nearest_eq, hunits, hrounded]

/-- A ratio that differs from a number in its seventeenth digit at most is rounded to it. -/
theorem nearest_of_near (h : Canonical m e) (ha : 0 < a) (hb : 0 < b)
    (hnear : |(a : ℚ) / b - m * 2 ^ e| * (2 * 10 ^ 16) ≤ m * 2 ^ e) : nearest a b = (m, e) := by
  obtain ⟨hmax, hexp, -, hfull⟩ := h
  have hmax' : (m : ℚ) + 1 ≤ 9007199254740992 := by exact_mod_cast hmax
  obtain ⟨hbelow, habove⟩ : (m : ℚ) * 2 ^ e - m * 2 ^ e / (2 * 10 ^ 16) ≤ a / b ∧
      (a : ℚ) / b ≤ m * 2 ^ e + m * 2 ^ e / (2 * 10 ^ 16) := by
    rw [← le_div_iff₀ (by norm_num), abs_le] at hnear
    exact ⟨by linarith [hnear.1], by linarith [hnear.2]⟩
  have h52 : ∀ u : ℤ, (2 : ℚ) ^ (52 + u) = 4503599627370496 * 2 ^ u := fun u => by
    rw [zpow_add₀ (by norm_num)]
    norm_num
  have h53 : ∀ u : ℤ, (2 : ℚ) ^ (53 + u) = 9007199254740992 * 2 ^ u := fun u => by
    rw [zpow_add₀ (by norm_num)]
    norm_num
  have hpos : (0 : ℚ) < 2 ^ e := by positivity
  have htop : (m : ℚ) * 2 ^ e + 2 ^ e ≤ 9007199254740992 * 2 ^ e := by
    rw [← add_one_mul]
    exact mul_le_mul_of_nonneg_right hmax' hpos.le
  by_cases hcase : (a : ℚ) / b < m * 2 ^ e ∧ m = minSignificand ∧ e ≠ -1074
  · -- below a power of two the units are half as large
    obtain ⟨hlt, rfl, hne⟩ := hcase
    have hhalf : (2 : ℚ) ^ e = 2 * 2 ^ (e - 1) := by rw [zpow_sub₀ (by norm_num), zpow_one]; ring
    rw [hhalf, minSignificand, Nat.cast_ofNat] at hbelow hlt
    have hpos' : (0 : ℚ) < 2 ^ (e - 1) := by positivity
    rw [nearest_of_units maxSignificand (e - 1) ha hb (by omega) ?_ ?_ ?_ ?_, if_pos rfl, sub_add_cancel]
    · rw [h52]
      exact Or.inl (by linarith)
    · rw [h53]
      linarith
    · rw [maxSignificand]
      push_cast
      linarith
    · rw [maxSignificand]
      push_cast
      linarith
  · rw [nearest_of_units m e ha hb hexp ?_ ?_ ?_ ?_, if_neg hmax.ne]
    · rw [h52]
      by_cases hsmall : e = -1074
      · exact Or.inr hsmall
      have hle : (4503599627370496 : ℚ) ≤ m := by exact_mod_cast hfull.resolve_right hsmall
      refine Or.inl ?_
      rcases not_and_or.mp hcase with hge | hmore
      · refine le_trans ?_ (not_lt.mp hge)
        exact mul_le_mul_of_nonneg_right hle hpos.le
      · have hne : minSignificand ≠ m := fun heq => hmore ⟨heq.symm, hsmall⟩
        have hlt : (4503599627370496 : ℚ) + 1 ≤ m := by
          exact_mod_cast lt_of_le_of_ne (hfull.resolve_right hsmall) hne
        have hunit : (4503599627370496 + 1 : ℚ) * 2 ^ e ≤ m * 2 ^ e := mul_le_mul_of_nonneg_right hlt hpos.le
        linarith
    · rw [h53]
      linarith
    · push_cast
      linarith
    · push_cast
      linarith

end Binary64

/-! ### Decimals near a ratio -/

/-- A number with some digits is at least the power of ten that has as many. -/
theorem pow_length_le {n : ℕ} (hn : 0 < n) : 10 ^ ((decimalDigits n).length - 1) ≤ n := by
  rcases Nat.eq_zero_or_pos ((decimalDigits n).length - 1) with hzero | hpos
  · rw [hzero, pow_zero]
    exact hn
  · by_contra hlt
    have hlength := (Nat.length_toDigits_le_iff (by norm_num) hpos).mpr (not_le.mp hlt)
    rw [decimalDigits] at hpos hlength
    omega

theorem lt_pow_length (n : ℕ) : n < 10 ^ (decimalDigits n).length :=
  (Nat.length_toDigits_le_iff (by norm_num) Nat.length_toDigits_pos).mp le_rfl

/-- The decimal logarithm of a ratio is rounded down. -/
theorem ratioLog10_le (ha : 0 < a) (hb : 0 < b) : (10 : ℚ) ^ ratioLog10 a b ≤ a / b := by
  have hb' : (0 : ℚ) < b := by exact_mod_cast hb
  have hlow : (10 : ℚ) ^ (((decimalDigits a).length : ℤ) - (decimalDigits b).length - 1) ≤ a / b := by
    have ha' : (10 : ℚ) ^ (((decimalDigits a).length : ℤ) - 1) ≤ a := by
      have hlength : 0 < (decimalDigits a).length := Nat.length_toDigits_pos
      have hcast : ((decimalDigits a).length : ℤ) - 1 = ((decimalDigits a).length - 1 : ℕ) := by omega
      rw [hcast, zpow_natCast]
      exact_mod_cast pow_length_le ha
    have hb'' : (b : ℚ) ≤ 10 ^ ((decimalDigits b).length : ℤ) := by
      rw [zpow_natCast]
      exact_mod_cast (lt_pow_length b).le
    rw [le_div_iff₀ hb']
    calc (10 : ℚ) ^ (((decimalDigits a).length : ℤ) - (decimalDigits b).length - 1) * b
        ≤ 10 ^ (((decimalDigits a).length : ℤ) - (decimalDigits b).length - 1) *
            10 ^ ((decimalDigits b).length : ℤ) := by gcongr
      _ = 10 ^ (((decimalDigits a).length : ℤ) - 1) := by rw [← zpow_add₀ (by norm_num)]; congr 1; ring
      _ ≤ a := ha'
  -- the estimate from the numbers of digits is at most one too large, and is corrected by a comparison
  simp only [ratioLog10]
  split_ifs with h0 h1 h1
  · rw [le_div_iff₀ hb', ← ten_zpow_toNat h0, mul_comm]
    exact_mod_cast h1
  · exact hlow
  · rw [le_div_iff₀ hb', ← neg_neg ((decimalDigits a).length - (decimalDigits b).length : ℤ), zpow_neg,
      inv_mul_le_iff₀ (by positivity),
      ← ten_zpow_toNat (by omega), mul_comm]
    exact_mod_cast h1
  · exact hlow

/-- Counting in units keeps the ratio. -/
theorem inUnits_eq (hb : 0 < b) (unit : ℤ) : 0 < (inUnits a b unit).2 ∧
    ((inUnits a b unit).1 : ℚ) / (inUnits a b unit).2 * 10 ^ unit = a / b := by
  have hb' : (b : ℚ) ≠ 0 := by exact_mod_cast hb.ne'
  have hpow : (10 : ℚ) ^ unit ≠ 0 := by positivity
  rw [inUnits]
  split_ifs with h
  · refine ⟨Nat.mul_pos hb (Nat.pow_pos (by norm_num)), ?_⟩
    simp only
    rw [Nat.cast_mul, ten_zpow_toNat h]
    field_simp
  · refine ⟨hb, ?_⟩
    simp only
    rw [Nat.cast_mul, ten_zpow_toNat (by omega), zpow_neg]
    field_simp

/-- A rounded quotient is at most one half away. -/
theorem abs_divEven_sub_le {p q : ℕ} (hq : 0 < q) : |(divEven p q : ℚ) - p / q| ≤ 1 / 2 := by
  have hq' : (0 : ℚ) < q := by exact_mod_cast hq
  have hsplit := Nat.div_add_mod p q
  have hrest := Nat.mod_lt p hq
  simp only [divEven]
  -- only the remainder matters, which is compared with half of the divisor
  generalize p / q = n at *
  generalize p % q = r at *
  have hp : (p : ℚ) / q = n + r / q := by
    rw [← hsplit]
    push_cast
    field_simp
  have hr0 : (0 : ℚ) ≤ r / q := by positivity
  have hr1 : (r : ℚ) / q ≤ 1 := (div_le_one hq').mpr (by exact_mod_cast hrest.le)
  have hsmall : 2 * r ≤ q → (r : ℚ) / q ≤ 1 / 2 := fun h => by
    rw [div_le_div_iff₀ hq' two_pos, one_mul, mul_comm]
    exact_mod_cast h
  have hlarge : q ≤ 2 * r → 1 / 2 ≤ (r : ℚ) / q := fun h => by
    rw [div_le_div_iff₀ two_pos hq', one_mul, mul_comm]
    exact_mod_cast h
  rw [hp, abs_le]
  split_ifs with h1 h2 h3
  · have := hsmall h1.le
    constructor <;> linarith
  · have := hlarge h2.le
    push_cast
    constructor <;> linarith
  · have := hsmall (not_lt.mp h2)
    constructor <;> linarith
  · have := hlarge (not_lt.mp h1)
    push_cast
    constructor <;> linarith

namespace Decimal

variable {back : Decimal → Bool} {d : Decimal} {x : ℚ} {unit : ℤ}

/-- A decimal lies between half of a value and twice of it. -/
def Nears (x : ℚ) (d : Decimal) : Prop := x / 2 ≤ d.value ∧ d.value ≤ 2 * x

/-- On a grid that is not coarser than the value, both neighbours are near. -/
theorem nears_of_neighbour {p q k : ℕ} (hq : 0 < q) (hx : (p : ℚ) / q * 10 ^ unit = x) (hunit : 10 ^ unit ≤ x)
    (hlow : p / q ≤ k) (hhigh : k ≤ p / q + 1) : Nears x ⟨k, unit⟩ := by
  have hpow : (0 : ℚ) < 10 ^ unit := by positivity
  have hq' : (0 : ℚ) < q := by exact_mod_cast hq
  have hone : 1 ≤ p / q := by
    rw [Nat.one_le_div_iff hq]
    rw [← hx] at hunit
    have hratio : (1 : ℚ) ≤ p / q := le_of_mul_le_mul_right (by rwa [one_mul]) hpow
    rw [le_div_iff₀ hq', one_mul] at hratio
    exact_mod_cast hratio
  have hfloor : ((p / q : ℕ) : ℚ) ≤ p / q := Nat.cast_div_le
  have hceil : (p : ℚ) / q < (p / q : ℕ) + 1 := by
    rw [div_lt_iff₀ hq']
    have hlt : p < (p / q + 1) * q := (Nat.div_lt_iff_lt_mul hq).mp (Nat.lt_succ_self _)
    exact_mod_cast hlt
  have hone' : (1 : ℚ) ≤ (p / q : ℕ) := by exact_mod_cast hone
  have hlow' : ((p / q : ℕ) : ℚ) ≤ k := by exact_mod_cast hlow
  have hhigh' : (k : ℚ) ≤ (p / q : ℕ) + 1 := by exact_mod_cast hhigh
  rw [Nears, value, ← hx]
  constructor
  · -- from 1 on a number is less than twice its whole part, and the next whole number at most twice the number
    have hhalf : (p : ℚ) / q / 2 ≤ k := by linarith
    calc (p : ℚ) / q * 10 ^ unit / 2 = p / q / 2 * 10 ^ unit := by ring
      _ ≤ k * 10 ^ unit := mul_le_mul_of_nonneg_right hhalf hpow.le
  · have hdouble : (k : ℚ) ≤ 2 * (p / q) := by linarith
    calc (k : ℚ) * 10 ^ unit ≤ 2 * (p / q) * 10 ^ unit := mul_le_mul_of_nonneg_right hdouble hpow.le
      _ = 2 * (p / q * 10 ^ unit) := by ring

theorem neighbour?_near (hb : 0 < b) (hunit : (10 : ℚ) ^ unit ≤ a / b) (h : neighbour? back a b unit = some d) :
    back d = true ∧ Nears (a / b) d := by
  obtain ⟨hq, hx⟩ := inUnits_eq (a := a) hb unit
  rw [neighbour?] at h
  simp only at h
  generalize (inUnits a b unit).1 = p at *
  generalize (inUnits a b unit).2 = q at *
  have hnear : ∀ k, p / q ≤ k → k ≤ p / q + 1 → Nears (a / b) ⟨k, unit⟩ :=
    fun k => nears_of_neighbour hq hx hunit
  -- the one that reads back is taken, and the nearer one where both do
  rcases hbelow : back ⟨p / q, unit⟩ with _ | _
  all_goals rcases habove : back ⟨p / q + 1, unit⟩ with _ | _
  all_goals rw [hbelow, habove] at h
  · cases h
  · cases h
    exact ⟨habove, hnear _ (Nat.le_succ _) le_rfl⟩
  · cases h
    exact ⟨hbelow, hnear _ le_rfl (Nat.le_succ _)⟩
  · cases h
    refine ⟨?_, hnear _ (div_le_divEven p q) (divEven_le p q)⟩
    have hlow := div_le_divEven p q
    have hhigh := divEven_le p q
    rcases hlow.lt_or_eq with hlt | heq
    · rw [show divEven p q = p / q + 1 by omega]
      exact habove
    · rw [← heq]
      exact hbelow

/-- So many digits are near, and the difference is half a unit of the last at most. -/
theorem roundSignificant_near (ha : 0 < a) (hb : 0 < b) (count : ℕ) (hcount : 1 ≤ count) :
    Nears (a / b) (roundSignificant a b count) ∧
      |(roundSignificant a b count).value - a / b| ≤ 10 ^ (ratioLog10 a b - count + 1) / 2 := by
  have hlog := ratioLog10_le ha hb
  obtain ⟨hq, hx⟩ := inUnits_eq (a := a) hb (ratioLog10 a b - count + 1)
  have hunit : (10 : ℚ) ^ (ratioLog10 a b - count + 1) ≤ a / b :=
    (zpow_le_zpow_right₀ (by norm_num) (by omega)).trans hlog
  refine ⟨nears_of_neighbour hq hx hunit (div_le_divEven _ _) (divEven_le _ _), ?_⟩
  have habs := abs_divEven_sub_le (p := (inUnits a b (ratioLog10 a b - count + 1)).1) hq
  have hpow : (0 : ℚ) < 10 ^ (ratioLog10 a b - count + 1) := by positivity
  have hvalue : (roundSignificant a b count).value = divEven (inUnits a b (ratioLog10 a b - count + 1)).1
      (inUnits a b (ratioLog10 a b - count + 1)).2 * 10 ^ (ratioLog10 a b - count + 1) := rfl
  rw [hvalue, ← hx, ← sub_mul, abs_mul, abs_of_pos hpow]
  linarith [mul_le_mul_of_nonneg_right habs hpow.le]

/-- The grid that is found has an accepted decimal near the ratio, if the last one has. -/
theorem firstGrid_near (ha : 0 < a) (hb : 0 < b) : ∀ {fuel count : ℕ}, 1 ≤ count →
    back (roundSignificant a b (count + fuel)) = true →
      back (firstGrid back a b count fuel) = true ∧ Nears (a / b) (firstGrid back a b count fuel)
  | 0, count, hcount, hlast => ⟨hlast, (roundSignificant_near ha hb count hcount).1⟩
  | fuel + 1, count, hcount, hlast => by
    have hunit : (10 : ℚ) ^ (ratioLog10 a b - count + 1) ≤ a / b :=
      (zpow_le_zpow_right₀ (by norm_num) (by omega)).trans (ratioLog10_le ha hb)
    rw [firstGrid]
    rcases hneighbour : neighbour? back a b (ratioLog10 a b - count + 1) with _ | d
    · exact firstGrid_near ha hb (Nat.le_succ_of_le hcount) (by rwa [show count + 1 + fuel = count + (fuel + 1) by omega])
    · exact neighbour?_near hb hunit hneighbour

/-- Zeros at the end of the digits are moved without a change of the value. -/
theorem value_trimUpTo : ∀ (fuel : ℕ) (d : Decimal), (trimUpTo fuel d).value = d.value
  | 0, _ => rfl
  | fuel + 1, d => by
    rw [trimUpTo]
    split_ifs with h
    · rw [value_trimUpTo fuel, value, value, zpow_add₀ (by norm_num), zpow_one]
      have hdigits : (d.digits : ℚ) = (d.digits / 10 : ℕ) * 10 := by
        exact_mod_cast (Nat.div_mul_cancel (Nat.dvd_of_mod_eq_zero h.2)).symm
      rw [hdigits]
      ring
    · rfl

theorem value_trim (d : Decimal) : d.trim.value = d.value := value_trimUpTo _ d

end Decimal

/-! ### The shortest decimal -/

namespace Binary64

theorem ratio_eq (m : ℕ) (e : ℤ) : 0 < (ratio m e).2 ∧ ((ratio m e).1 : ℚ) / (ratio m e).2 = m * 2 ^ e := by
  rw [ratio]
  split_ifs with he
  · refine ⟨one_pos, ?_⟩
    simp only
    rw [Nat.cast_mul, two_zpow_toNat he, Nat.cast_one, div_one]
  · refine ⟨Nat.pow_pos (by norm_num), ?_⟩
    simp only
    rw [two_zpow_toNat (by omega), zpow_neg, div_inv_eq_mul]

/-- What is near a finite number is not far out of range. -/
theorem inReach_of_nears (h : Canonical m e) (hm : 0 < m) {d : Decimal} (hd : d.Nears (m * 2 ^ e)) : d.InReach := by
  obtain ⟨hmax, hexp, hexp', -⟩ := h
  have hm' : (1 : ℚ) ≤ m := by exact_mod_cast hm
  have hmax' : (m : ℚ) ≤ 2 ^ (53 : ℤ) := by
    rw [← maxSignificand_eq]
    exact_mod_cast hmax.le
  -- powers of ten are held against powers of two with three times the exponent
  have hten : ∀ k : ℤ, 0 ≤ k → (2 : ℚ) ^ (3 * k) ≤ 10 ^ k := by
    intro k hk
    obtain ⟨n, rfl⟩ := Int.eq_ofNat_of_zero_le hk
    rw [zpow_mul, zpow_natCast, zpow_natCast]
    exact pow_le_pow_left₀ (by norm_num) (by norm_num) n
  constructor
  · refine le_trans ?_ hd.1
    calc (10 : ℚ) ^ (-400 : ℤ) ≤ 2 ^ (-1200 : ℤ) := by
          rw [zpow_neg, zpow_neg]
          exact inv_anti₀ (by positivity) (hten 400 (by norm_num))
      _ ≤ 2 ^ (e - 1) := zpow_le_zpow_right₀ (by norm_num) (by omega)
      _ = 1 * 2 ^ e / 2 := by rw [zpow_sub₀ (by norm_num), zpow_one, one_mul]
      _ ≤ m * 2 ^ e / 2 := by gcongr
  · refine hd.2.trans ?_
    calc 2 * ((m : ℚ) * 2 ^ e) ≤ 2 ^ (1 : ℤ) * (2 ^ (53 : ℤ) * 2 ^ (971 : ℤ)) := by
          rw [zpow_one]
          gcongr
          norm_num
      _ = 2 ^ (1025 : ℤ) := by rw [← zpow_add₀ (by norm_num), ← zpow_add₀ (by norm_num)]; norm_num
      _ ≤ 2 ^ (3 * 400 : ℤ) := zpow_le_zpow_right₀ (by norm_num) (by norm_num)
      _ ≤ 10 ^ (400 : ℤ) := hten 400 (by norm_num)

theorem ofDecimal_seventeen (h : Canonical m e) (hm : 0 < m) (ha : 0 < a) (hb : 0 < b) (hratio : (a : ℚ) / b = m * 2 ^ e) :
    ofDecimal false (Decimal.roundSignificant a b 17).digits (Decimal.roundSignificant a b 17).exponent =
      pack false m e := by
  obtain ⟨hnear, habs⟩ := Decimal.roundSignificant_near ha hb 17 (by norm_num)
  have hlog := ratioLog10_le ha hb
  rw [hratio] at hnear habs hlog
  have hreach := inReach_of_nears h hm hnear
  obtain ⟨p, q, hq, hvalue⟩ := exists_ratio (le_trans (by positivity) hreach.1)
  have hp : 0 < p := by
    refine Nat.pos_of_ne_zero fun hzero => ?_
    have hlow := hreach.1
    rw [← hvalue, hzero, Nat.cast_zero, zero_div] at hlow
    exact absurd hlow (not_le.mpr (by positivity))
  have hclose : |(p : ℚ) / q - m * 2 ^ e| * (2 * 10 ^ 16) ≤ m * 2 ^ e := by
    rw [hvalue]
    calc |(Decimal.roundSignificant a b 17).value - m * 2 ^ e| * (2 * 10 ^ 16)
        ≤ 10 ^ (ratioLog10 a b - (17 : ℕ) + 1) / 2 * (2 * 10 ^ 16) := by gcongr
      _ = 10 ^ ratioLog10 a b := by
          rw [show ratioLog10 a b - (17 : ℕ) + 1 = ratioLog10 a b + (-16) by push_cast; ring, zpow_add₀ (by norm_num)]
          norm_num
          ring
      _ ≤ m * 2 ^ e := hlog
  rw [ofDecimal_eq false hreach hq hvalue, ofRatio, if_neg hp.ne', nearest_of_near h hp hq hclose]

/-- The shortest decimal reads back, and it is not far out of range. -/
theorem ofDecimal_shortest (h : Canonical m e) (hm : 0 < m) (negative : Bool) : (shortest m e).InReach ∧
    ofDecimal negative (shortest m e).digits (shortest m e).exponent = finite negative m e h := by
  obtain ⟨hb, hratio⟩ := ratio_eq m e
  have ha : 0 < (ratio m e).1 := by
    refine Nat.pos_of_ne_zero fun hzero => ?_
    rw [hzero, Nat.cast_zero, zero_div] at hratio
    have hm' : (0 : ℚ) < m := by exact_mod_cast hm
    exact absurd hratio (ne_of_lt (by positivity))
  let reads : Decimal → Bool := fun d => ofDecimal false d.digits d.exponent = pack false m e
  have hgrid : reads (Decimal.firstGrid reads (ratio m e).1 (ratio m e).2 1 16) = true ∧
      Decimal.Nears ((ratio m e).1 / (ratio m e).2) (Decimal.firstGrid reads (ratio m e).1 (ratio m e).2 1 16) :=
    Decimal.firstGrid_near ha hb le_rfl (decide_eq_true (ofDecimal_seventeen h hm ha hb hratio))
  obtain ⟨hback, hnear⟩ := hgrid
  rw [hratio] at hnear
  have hgrid := inReach_of_nears h hm hnear
  have hvalue := Decimal.value_trim (Decimal.firstGrid reads (ratio m e).1 (ratio m e).2 1 16)
  have hreach : (shortest m e).InReach := by
    rwa [Decimal.InReach, shortest, hvalue]
  have hreads : ofDecimal false (shortest m e).digits (shortest m e).exponent = finite false m e h := by
    rw [ofDecimal_congr false hreach hvalue, of_decide_eq_true hback, pack, dif_pos h]
  refine ⟨hreach, ?_⟩
  cases negative
  · exact hreads
  · rw [ofDecimal_true, hreads]
    rfl

end Binary64

end ScoreGate
