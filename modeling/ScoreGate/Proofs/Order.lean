import Mathlib
import ScoreGate.Number

/-!
# The order of numbers

Numbers are compared by their places, and a place that is no number is on neither side of anything.  What follows are
the laws that the checks of a comparison rest on: the two orders chain, and cutting a number off from below does not
change which limits it is above, as long as they are not below the cut.
-/

namespace ScoreGate

namespace Place

variable {p q r : Place}

theorem le_trans (h₁ : p.le q = true) (h₂ : q.le r = true) : p.le r = true := by
  cases p <;> cases q <;> cases r <;> simp_all [le]
  exact h₁.trans h₂

theorem lt_of_lt_of_le (h₁ : p.lt q = true) (h₂ : q.le r = true) : p.lt r = true := by
  cases p <;> cases q <;> cases r <;> simp_all [le, lt]
  exact h₁.trans_le h₂

theorem lt_of_le_of_lt (h₁ : p.le q = true) (h₂ : q.lt r = true) : p.lt r = true := by
  cases p <;> cases q <;> cases r <;> simp_all [le, lt]
  exact h₁.trans_lt h₂

theorem le_of_lt (h : p.lt q = true) : p.le q = true := by
  cases p <;> cases q <;> simp_all [le, lt]
  exact h.le

theorem not_lt_of_le (h : p.le q = true) : q.lt p = false := by
  cases p <;> cases q <;> simp_all [le, lt]

/-- Of two places that are numbers, one is at or before the other. -/
theorem le_of_not_lt (hp : p.le p = true) (hq : q.le q = true) (h : q.lt p = false) : p.le q = true := by
  cases p <;> cases q <;> simp_all [le, lt]

end Place

namespace Number

variable {x y z limit : Number}

theorem le_trans (h₁ : x.le y = true) (h₂ : y.le z = true) : x.le z = true := Place.le_trans h₁ h₂

theorem lt_of_lt_of_le (h₁ : x.lt y = true) (h₂ : y.le z = true) : x.lt z = true := Place.lt_of_lt_of_le h₁ h₂

theorem lt_of_le_of_lt (h₁ : x.le y = true) (h₂ : y.lt z = true) : x.lt z = true := Place.lt_of_le_of_lt h₁ h₂

theorem not_lt_of_le (h : x.le y = true) : y.lt x = false := Place.not_lt_of_le h

theorem le_refl_of_nonneg (h : (0 : Number).le x = true) : x.le x = true := by
  revert h
  rcases hx : x.place with _ | _ | q | _ <;> simp [Number.le, hx, Place.le]
  rcases h0 : (0 : Number).place with _ | _ | q | _ <;> simp

/-- A number cut off from below is above the same limits, where they are not below the cut. -/
theorem lt_max (h : z.le limit = true) : limit.lt (z.max x) = limit.lt x := by
  by_cases hx : z.lt x = true
  · rw [Number.max, if_pos hx]
  · rw [Number.max, if_neg hx, not_lt_of_le h]
    by_contra hl
    exact hx (lt_of_le_of_lt h (by simpa using Ne.symm hl))

/-- Cutting off from below keeps the order. -/
theorem max_mono (hz : z.le z = true) (hxy : x.le y = true) : (z.max x).le (z.max y) = true := by
  simp only [Number.max]
  split_ifs with h h' h'
  · exact hxy
  · exact absurd (lt_of_lt_of_le h hxy) h'
  · exact Place.le_of_lt h'
  · exact hz

theorem place_zero_real : (Number.real (.zero false)).place = (0 : Number).place := by
  exact congrArg Place.point (Rat.zero_mkRat _)

theorem place_of_toInt? {k : ℤ} (h : x.toInt? = some k) : x.place = .point k := by
  rcases x with b | i | r
  · obtain rfl := Option.some.inj h
    cases b <;> simp [place]
  · obtain rfl := Option.some.inj h
    rfl
  · cases h

theorem int_le_int {m n : ℤ} : (Number.int m).le (.int n) = true ↔ m ≤ n := by
  simp [Number.le, Number.place, Place.le]

theorem int_lt_int {m n : ℤ} : (Number.int m).lt (.int n) = true ↔ m < n := by
  simp [Number.lt, Number.place, Place.lt]

end Number

end ScoreGate
