import Mathlib.Data.Nat.Log
import Mathlib.Tactic.Ring

/-!
Naturals as binary floating-point numbers of some precision: rounding to the nearest
one, to the even one of two, and the naturals that need no rounding.
-/

namespace Significand

def unit (precision value : Nat) : Nat :=
  2 ^ (value.log2 + 1 - precision)

def round (precision value : Nat) : Nat :=
  let place := unit precision value
  let below := value / place * place
  if 2 * (value % place) < place ∨ 2 * (value % place) = place ∧ value / place % 2 = 0 then below
  else below + place

def Exact (precision value : Nat) : Prop :=
  ∃ digits exponent, digits < 2 ^ precision ∧ value = digits * 2 ^ exponent

variable {precision value : Nat}

theorem unit_pos : 0 < unit precision value :=
  Nat.two_pow_pos _

theorem round_of_dvd (exact : unit precision value ∣ value) : round precision value = value := by
  have rest := Nat.mod_eq_zero_of_dvd exact
  have positive : 0 < unit precision value := unit_pos
  simp only [round]
  rw [if_pos (Or.inl (by omega)), Nat.div_mul_cancel exact]

theorem dvd_of_round (same : round precision value = value) : unit precision value ∣ value := by
  have parts := Nat.div_add_mod' value (unit precision value)
  have positive : 0 < unit precision value := unit_pos
  have less := Nat.mod_lt value positive
  refine Nat.dvd_of_mod_eq_zero ?_
  simp only [round] at same
  split at same <;> omega

theorem unit_dvd_iff :
    unit precision value ∣ value ↔ Exact precision value := by
  constructor
  · intro exact
    refine ⟨value / unit precision value, value.log2 + 1 - precision, ?_,
      (Nat.div_mul_cancel exact).symm⟩
    rw [Nat.div_lt_iff_lt_mul unit_pos, unit, ← Nat.pow_add]
    exact Nat.lt_of_lt_of_le Nat.lt_log2_self (Nat.pow_le_pow_right (by omega) (by omega))
  · rintro ⟨digits, exponent, small, rfl⟩
    rcases Nat.eq_zero_or_pos digits with zero | nonzero
    · simp [zero]
    · refine Nat.dvd_trans (Nat.pow_dvd_pow 2 ?_) (Nat.dvd_mul_left _ _)
      have bound : (digits * 2 ^ exponent).log2 < precision + exponent := by
        rw [Nat.log2_lt (Nat.ne_of_gt (Nat.mul_pos nonzero (Nat.two_pow_pos _))), Nat.pow_add]
        exact Nat.mul_lt_mul_of_pos_right small (Nat.two_pow_pos _)
      omega

theorem round_eq_iff : round precision value = value ↔ Exact precision value :=
  (Iff.intro dvd_of_round round_of_dvd).trans unit_dvd_iff

theorem round_le (positive : 0 < precision) : round precision value ≤ 2 * value := by
  rcases Nat.eq_zero_or_pos value with zero | nonzero
  · subst zero
    exact Nat.le_of_eq (round_of_dvd (Nat.dvd_zero _))
  · have place : unit precision value ≤ value :=
      Nat.le_trans (Nat.pow_le_pow_right (by omega) (by omega))
        (Nat.log2_self_le (Nat.ne_of_gt nonzero))
    have below := Nat.div_mul_le_self value (unit precision value)
    simp only [round]
    split <;> omega

end Significand
