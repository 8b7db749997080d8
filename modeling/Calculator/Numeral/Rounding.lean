import Mathlib
import Calculator.Numeral.Magnitude

/-!
# Rounding to magnitudes

The values of magnitudes rise with them (`units_lt_units_succ`), `atMost` finds
a magnitude from its value (`atMost_units`), and a quotient that is the value
of a finite magnitude is rounded to that magnitude (`nearest_units`).
-/

namespace Calculator.Numeral

/-- A magnitude past the first binade, split into its power of two and the
rest of its bits. -/
private theorem units_normal (power rest : Nat) (h : rest < binade) :
    units ((power + 1) * binade + rest) = (binade + rest) * 2 ^ power := by
  have hpos : 0 < binade := by decide
  have hge : ¬ (power + 1) * binade + rest < binade := by
    rw [Nat.add_mul]
    omega
  have hmod : ((power + 1) * binade + rest) % binade = rest := by
    rw [Nat.add_comm, Nat.add_mul_mod_self_right, Nat.mod_eq_of_lt h]
  have hdiv : ((power + 1) * binade + rest) / binade = power + 1 := by
    rw [Nat.add_comm, Nat.add_mul_div_right _ _ hpos, Nat.div_eq_of_lt h, Nat.zero_add]
  rw [units, if_neg hge, hmod, hdiv, Nat.add_sub_cancel, Nat.shiftLeft_eq]

private theorem units_subnormal (k : Nat) (h : k < binade) : units k = k := by
  rw [units, if_pos h]

/-- Every magnitude is below the first binade or has a power of two. -/
private theorem magnitude_cases (k : Nat) :
    k < binade ∨ ∃ power rest, rest < binade ∧ k = (power + 1) * binade + rest := by
  rcases Nat.lt_or_ge k binade with h | h
  · exact Or.inl h
  · have hpos : 0 < binade := by decide
    refine Or.inr ⟨k / binade - 1, k % binade, Nat.mod_lt k hpos, ?_⟩
    have hdiv : 1 ≤ k / binade := (Nat.le_div_iff_mul_le hpos).2 (by omega)
    rw [Nat.sub_add_cancel hdiv]
    exact (Nat.div_add_mod' k binade).symm

/-- The values of magnitudes rise with them. -/
theorem units_lt_units_succ (k : Nat) : units k < units (k + 1) := by
  rcases magnitude_cases k with h | ⟨power, rest, h, rfl⟩
  · rw [units_subnormal k h]
    rcases Nat.lt_or_ge (k + 1) binade with h' | h'
    · rw [units_subnormal _ h']
      omega
    · have hk : k + 1 = (0 + 1) * binade + 0 := by omega
      rw [hk, units_normal 0 0 (by decide)]
      omega
  · have hpow : 0 < 2 ^ power := Nat.two_pow_pos power
    rw [units_normal power rest h]
    rcases Nat.lt_or_ge (rest + 1) binade with h' | h'
    · rw [Nat.add_assoc, units_normal power (rest + 1) h']
      exact Nat.mul_lt_mul_of_pos_right (by omega) hpow
    · have hk : (power + 1) * binade + rest + 1 = (power + 1 + 1) * binade + 0 := by
        rw [Nat.add_mul (power + 1)]
        omega
      rw [hk, units_normal (power + 1) 0 (by decide), Nat.pow_succ, Nat.mul_comm (2 ^ power) 2,
        ← Nat.mul_assoc]
      exact Nat.mul_lt_mul_of_pos_right (by omega) hpow

/-- The value of a positive magnitude is positive. -/
theorem units_pos {k : Nat} (h : 0 < k) : 0 < units k := by
  cases k with
  | zero => omega
  | succ k => exact Nat.lt_of_le_of_lt (Nat.zero_le _) (units_lt_units_succ k)

/-- A magnitude is the greatest one that is not above its own value. -/
theorem atMost_units (k : Nat) : atMost (units k) = k := by
  rcases magnitude_cases k with h | ⟨power, rest, h, rfl⟩
  · rw [units_subnormal k h]
    have hlog : k.log2 - 52 = 0 := by
      rcases Nat.eq_zero_or_pos k with rfl | hk
      · rfl
      · have := (Nat.log2_lt (k := 52) (by omega)).2 h
        omega
    simp [atMost, hlog]
  · have hbinade : 0 < binade := by decide
    have hlog : ((binade + rest) * 2 ^ power).log2 = 52 + power := by
      have hpow : 0 < 2 ^ power := Nat.two_pow_pos power
      have hone : 0 < (binade + rest) * 2 ^ power := Nat.mul_pos (by omega) hpow
      rw [Nat.log2_eq_iff (Nat.pos_iff_ne_zero.1 hone)]
      constructor
      · rw [Nat.pow_add]
        exact Nat.mul_le_mul_right _ (by simp [binade])
      · rw [show 52 + power + 1 = 53 + power by omega, Nat.pow_add]
        exact Nat.mul_lt_mul_of_pos_right (by simp only [binade] at h ⊢; omega) hpow
    rw [units_normal power rest h, atMost, hlog]
    simp only [Nat.add_sub_cancel_left, Nat.shiftRight_eq_div_pow]
    rw [Nat.mul_div_cancel _ (Nat.two_pow_pos power), Nat.add_mul]
    omega

/-- A quotient that is the value of a finite magnitude is rounded to it. -/
theorem nearest_units {k den : Nat} (hk : k < infinity) (hden : 0 < den) :
    nearest (units k * den) den = k := by
  have hlt : 2 * (units k * den) < (units k + units (k + 1)) * den := by
    rw [← Nat.mul_assoc]
    exact Nat.mul_lt_mul_of_pos_right (by have := units_lt_units_succ k; omega) hden
  rw [nearest, Nat.mul_div_cancel _ hden, atMost_units]
  simp only [Nat.not_le.2 hk, if_false, Nat.compare_eq_lt.2 hlt]

end Calculator.Numeral
