import Mathlib
import ScoreGate.Number

/-!
# Rounding stays in range

A ratio below `2^1023` has a finite nearest number, so no integer of the sizes that occur in practice is out of range.

* `ratioLog2_bounds`: `ratioLog2 a b` is the binary logarithm of `a / b`, rounded down.
* `nearest_canonical`: the significand and exponent nearest to such a ratio are in range.
* `Number.toReal_int`: an integer below `2^1023` has a floating-point number.
-/

namespace ScoreGate

variable {a b : ℕ}

/-! ### Rounding a quotient -/

theorem div_le_divEven (a b : ℕ) : a / b ≤ divEven a b := by
  simp only [divEven]
  split_ifs <;> omega

theorem divEven_le (a b : ℕ) : divEven a b ≤ a / b + 1 := by
  simp only [divEven]
  split_ifs <;> omega

/-- A quotient between two natural numbers is rounded to one between them. -/
theorem divEven_mem_Icc {l u : ℕ} (hb : 0 < b) (hl : l * b ≤ a) (hu : a < u * b) :
    l ≤ divEven a b ∧ divEven a b ≤ u := by
  have h1 : l ≤ a / b := (Nat.le_div_iff_mul_le hb).mpr hl
  have h2 : a / b < u := (Nat.div_lt_iff_lt_mul hb).mpr hu
  have h3 := div_le_divEven a b
  have h4 := divEven_le a b
  omega

/-! ### The binary logarithm of a ratio -/

/-- A natural number lies between the powers of two around its logarithm. -/
theorem log2_bounds {n : ℕ} (hn : 0 < n) : (2 : ℚ) ^ (n.log2 : ℤ) ≤ n ∧ (n : ℚ) < 2 ^ ((n.log2 : ℤ) + 1) := by
  have h1 : 2 ^ n.log2 ≤ n := Nat.log2_self_le (by omega)
  have h2 : n < 2 ^ (n.log2 + 1) := Nat.lt_log2_self
  constructor
  · rw [zpow_natCast]
    exact_mod_cast h1
  · rw [show ((n.log2 : ℤ) + 1) = ((n.log2 + 1 : ℕ) : ℤ) by push_cast; rfl, zpow_natCast]
    exact_mod_cast h2

theorem two_zpow_toNat {d : ℤ} (hd : 0 ≤ d) : ((Nat.pow 2 d.toNat : ℕ) : ℚ) = 2 ^ d := by
  rw [Nat.pow_eq, Nat.cast_pow, ← zpow_natCast, Int.toNat_of_nonneg hd]
  rfl

theorem ratioLog2_bounds (ha : 0 < a) (hb : 0 < b) :
    (2 : ℚ) ^ ratioLog2 a b ≤ a / b ∧ (a : ℚ) / b < 2 ^ (ratioLog2 a b + 1) := by
  have ha' : (0 : ℚ) < a := by exact_mod_cast ha
  have hb' : (0 : ℚ) < b := by exact_mod_cast hb
  obtain ⟨a1, a2⟩ := log2_bounds ha
  obtain ⟨b1, b2⟩ := log2_bounds hb
  -- before the test the logarithm is known up to one
  have hlow : (2 : ℚ) ^ ((a.log2 : ℤ) - b.log2 - 1) ≤ a / b := by
    rw [le_div_iff₀ hb']
    calc (2 : ℚ) ^ ((a.log2 : ℤ) - b.log2 - 1) * b
        ≤ 2 ^ ((a.log2 : ℤ) - b.log2 - 1) * 2 ^ ((b.log2 : ℤ) + 1) := by gcongr
      _ = 2 ^ (a.log2 : ℤ) := by rw [← zpow_add₀ (by norm_num)]; congr 1; ring
      _ ≤ a := a1
  have hhigh : (a : ℚ) / b < 2 ^ ((a.log2 : ℤ) - b.log2 + 1) := by
    rw [div_lt_iff₀ hb']
    calc (a : ℚ) < 2 ^ ((a.log2 : ℤ) + 1) := a2
      _ = 2 ^ ((a.log2 : ℤ) - b.log2 + 1) * 2 ^ (b.log2 : ℤ) := by
          rw [← zpow_add₀ (by norm_num)]; congr 1; ring
      _ ≤ 2 ^ ((a.log2 : ℤ) - b.log2 + 1) * b := by gcongr
  have htest : ∀ {d : ℤ}, d = (a.log2 : ℤ) - b.log2 → ratioLog2 a b = (if (2 : ℚ) ^ d ≤ a / b then d else d - 1) := by
    intro d hd
    simp only [ratioLog2, ← hd]
    by_cases h0 : 0 ≤ d
    · have hn : (2 : ℚ) ^ d ≤ a / b ↔ b * Nat.pow 2 d.toNat ≤ a := by
        rw [le_div_iff₀ hb', ← two_zpow_toNat h0, ← Nat.cast_mul, Nat.cast_le, mul_comm]
      rw [if_pos h0]
      simp only [hn]
    · have hn : (2 : ℚ) ^ d ≤ a / b ↔ b ≤ a * Nat.pow 2 (-d).toNat := by
        have hp : (0 : ℚ) < 2 ^ (-d) := by positivity
        rw [le_div_iff₀ hb', ← Nat.cast_le (α := ℚ), Nat.cast_mul, two_zpow_toNat (by omega),
          ← mul_le_mul_iff_left₀ hp, mul_right_comm, ← zpow_add₀ (by norm_num), add_neg_cancel, zpow_zero, one_mul]
      rw [if_neg h0]
      simp only [hn]
  rw [htest rfl]
  split_ifs with h
  · exact ⟨h, hhigh⟩
  · refine ⟨hlow, ?_⟩
    rw [sub_add_cancel]
    exact not_le.mp h

theorem ratioLog2_lt {k : ℤ} (ha : 0 < a) (hb : 0 < b) (h : (a : ℚ) / b < 2 ^ k) : ratioLog2 a b < k := by
  have h1 := (ratioLog2_bounds ha hb).1.trans_lt h
  exact (zpow_lt_zpow_iff_right₀ (by norm_num)).mp h1

/-! ### The nearest number -/

namespace Binary64

/-- The units in which a ratio is rounded. -/
def units (a b : ℕ) : ℤ := max (ratioLog2 a b - 52) (-1074)

/-- A ratio in units of a power of two, rounded. -/
def rounded (a b : ℕ) (e : ℤ) : ℕ :=
  if 0 ≤ e then divEven a (b * Nat.pow 2 e.toNat) else divEven (a * Nat.pow 2 (-e).toNat) b

theorem nearest_eq (a b : ℕ) : nearest a b =
    if rounded a b (units a b) = maxSignificand then (minSignificand, units a b + 1)
    else (rounded a b (units a b), units a b) := rfl

theorem maxSignificand_eq : ((maxSignificand : ℕ) : ℚ) = 2 ^ (53 : ℤ) := by norm_num [maxSignificand]

theorem minSignificand_eq : ((minSignificand : ℕ) : ℚ) = 2 ^ (52 : ℤ) := by norm_num [minSignificand]

/-- Rounding is a rounded quotient, of the ratio in these units. -/
theorem rounded_eq (hb : 0 < b) (e : ℤ) : ∃ p q : ℕ, 0 < q ∧ (p : ℚ) / q = a / b / 2 ^ e ∧ rounded a b e = divEven p q := by
  have hpow : ∀ n, 0 < Nat.pow 2 n := fun n => Nat.pow_pos (by norm_num)
  by_cases he : 0 ≤ e
  · refine ⟨a, b * Nat.pow 2 e.toNat, Nat.mul_pos hb (hpow _), ?_, if_pos he⟩
    rw [Nat.cast_mul, two_zpow_toNat he, div_div]
  · refine ⟨a * Nat.pow 2 (-e).toNat, b, hb, ?_, if_neg he⟩
    rw [Nat.cast_mul, two_zpow_toNat (by omega), zpow_neg]
    field_simp

/-- A ratio that lies between two whole numbers of units is rounded to one between them. -/
theorem rounded_mem_Icc {e : ℤ} {l u : ℕ} (hb : 0 < b) (hl : (l : ℚ) * 2 ^ e ≤ a / b) (hu : (a : ℚ) / b < u * 2 ^ e) :
    l ≤ rounded a b e ∧ rounded a b e ≤ u := by
  obtain ⟨p, q, hq, hratio, hrounded⟩ := rounded_eq (a := a) hb e
  have hq' : (0 : ℚ) < q := by exact_mod_cast hq
  rw [← le_div_iff₀ (by positivity), ← hratio, le_div_iff₀ hq'] at hl
  rw [← div_lt_iff₀ (by positivity), ← hratio, div_lt_iff₀ hq'] at hu
  rw [hrounded]
  exact divEven_mem_Icc hq (by exact_mod_cast hl) (by exact_mod_cast hu)

/-- What is rounded fits into a significand or is just one too large, and fills it unless the units are the smallest. -/
theorem rounded_units (ha : 0 < a) (hb : 0 < b) : rounded a b (units a b) ≤ maxSignificand ∧
    (minSignificand ≤ rounded a b (units a b) ∨ units a b = -1074) := by
  obtain ⟨h1, h2⟩ := ratioLog2_bounds ha hb
  have hu : (a : ℚ) / b < (maxSignificand : ℕ) * 2 ^ units a b := by
    rw [maxSignificand_eq, ← zpow_add₀ (by norm_num)]
    exact h2.trans_le (zpow_le_zpow_right₀ (by norm_num) (by rw [units]; omega))
  refine ⟨(rounded_mem_Icc (l := 0) (e := units a b) hb (by simp; positivity) hu).2, ?_⟩
  by_cases he : units a b = -1074
  · exact Or.inr he
  · refine Or.inl (rounded_mem_Icc (e := units a b) hb ?_ hu).1
    rw [minSignificand_eq, ← zpow_add₀ (by norm_num)]
    refine (zpow_le_zpow_right₀ (by norm_num) ?_).trans h1
    rw [units] at he ⊢
    omega

/-- After the carry the significand has at most 53 bits, and all of them unless the units are the smallest. -/
theorem nearest_bounds (ha : 0 < a) (hb : 0 < b) : (nearest a b).1 < maxSignificand ∧ -1074 ≤ (nearest a b).2 ∧
    (minSignificand ≤ (nearest a b).1 ∨ (nearest a b).2 = -1074) := by
  obtain ⟨hle, hfull⟩ := rounded_units ha hb
  have hunits : -1074 ≤ units a b := le_max_right _ _
  rw [nearest_eq]
  split_ifs with h
  · exact ⟨show minSignificand < maxSignificand by decide, by simp only; omega, Or.inl le_rfl⟩
  · exact ⟨lt_of_le_of_ne hle h, hunits, hfull⟩

/-- The nearest significand and exponent of a ratio below `2^1023` are in range. -/
theorem nearest_canonical (ha : 0 < a) (hb : 0 < b) (h : (a : ℚ) / b < 2 ^ (1023 : ℤ)) :
    Canonical (nearest a b).1 (nearest a b).2 := by
  obtain ⟨hlt, hexp, hfull⟩ := nearest_bounds ha hb
  have hlog := ratioLog2_lt ha hb h
  have hcarry : (nearest a b).2 ≤ units a b + 1 := by
    rw [nearest_eq]
    split_ifs
    · exact le_rfl
    · exact Int.le_add_one le_rfl
  refine ⟨hlt, hexp, ?_, hfull⟩
  rw [units] at hcarry
  omega

/-- A ratio below `2^1023` has a finite nearest number. -/
theorem ofRatio_eq_finite (negative : Bool) (hb : 0 < b) (h : (a : ℚ) / b < 2 ^ (1023 : ℤ)) :
    ∃ m e hc, ofRatio negative a b = finite negative m e hc := by
  by_cases ha : a = 0
  · exact ⟨0, -1074, by decide, by rw [ofRatio, if_pos ha]; rfl⟩
  · have hc := nearest_canonical (Nat.pos_of_ne_zero ha) hb h
    refine ⟨(nearest a b).1, (nearest a b).2, hc, ?_⟩
    rw [ofRatio, if_neg ha]
    exact dif_pos hc

end Binary64

/-- An integer below `2^1023` has a floating-point number. -/
theorem Number.toReal_int {n : ℤ} (h : n.natAbs < 2 ^ 1023) : ∃ x, (Number.int n).toReal = .ok x := by
  obtain ⟨m, e, hc, hx⟩ := Binary64.ofRatio_eq_finite (a := n.natAbs) (b := 1) (n < 0) one_pos (by
    rw [Nat.cast_one, div_one, show (1023 : ℤ) = (1023 : ℕ) by rfl, zpow_natCast]
    exact_mod_cast h)
  exact ⟨.finite (n < 0) m e hc, by simp only [Number.toReal, Binary64.ofInt, hx]⟩

end ScoreGate
