import Mathlib.Data.Int.Log
import Mathlib.Algebra.Order.Floor.Semiring
import Mathlib.Data.Rat.Floor
import Mathlib.Tactic.Linarith

/-!
# Rounding to 53 bits

A float64 is the rational number it stands for; `float64` rounds to the nearest one, and to the even one of two.  It
knows neither an overflow nor subnormal numbers, so that its arguments have to be away from both.
-/

namespace SingBox.Lib

/-- The nearest integer, the even one of two. -/
def roundEven (q : ℚ) : ℤ :=
  if 2 * (q - ⌊q⌋) < 1 then ⌊q⌋ else if 1 < 2 * (q - ⌊q⌋) then ⌊q⌋ + 1 else ⌊q⌋ + ⌊q⌋ % 2

def float64 (q : ℚ) : ℚ := roundEven (q / 2 ^ (Int.log 2 |q| - 52)) * 2 ^ (Int.log 2 |q| - 52)

lemma roundEven_le {q : ℚ} {n : ℤ} (h : q ≤ n) : roundEven q ≤ n := by
  have hfloor : ⌊q⌋ ≤ n := Int.cast_le.1 ((Int.floor_le q).trans h)
  have hparity : ⌊q⌋ % 2 ≤ 1 := by omega
  unfold roundEven
  split
  · exact hfloor
  next hhalf =>
    have hlt : ⌊q⌋ < n := by
      refine lt_of_le_of_ne hfloor fun heq => hhalf ?_
      rw [heq]
      linarith
    split <;> omega

@[simp] lemma float64_zero : float64 0 = 0 := by simp [float64, roundEven]

lemma float64_nonneg {q : ℚ} (h : 0 ≤ q) : 0 ≤ float64 q := by
  have hround {x : ℚ} (hx : 0 ≤ x) : 0 ≤ roundEven x := by
    have := Int.floor_nonneg.2 hx
    unfold roundEven
    split_ifs <;> omega
  have hpow (k : ℤ) : (0 : ℚ) ≤ 2 ^ k := zpow_nonneg zero_le_two k
  exact mul_nonneg (Int.cast_nonneg (hround (div_nonneg h (hpow _)))) (hpow _)

/-- Rounding does not pass an integer of 53 bits. -/
theorem float64_le {q : ℚ} {n : ℕ} (h0 : 0 ≤ q) (h : q ≤ n) (hn : n < 2 ^ 53) : float64 q ≤ n := by
  unfold float64
  rcases h0.eq_or_lt with rfl | hpos
  · simp [roundEven]
  rw [abs_of_pos hpos]
  -- the spacing of the numbers around `q` is a negative power of two
  obtain ⟨k, hk⟩ : ∃ k : ℕ, Int.log 2 q - 52 = -(k : ℤ) := by
    have hlog : (2 : ℚ) ^ Int.log 2 q < 2 ^ (53 : ℤ) := by
      refine (Int.zpow_log_le_self one_lt_two hpos).trans_lt (h.trans_lt ?_)
      exact_mod_cast hn
    have := (zpow_lt_zpow_iff_right₀ one_lt_two).1 hlog
    exact ⟨(52 - Int.log 2 q).toNat, by omega⟩
  have hpow : (0 : ℚ) < 2 ^ k := by positivity
  rw [hk, zpow_neg, zpow_natCast, div_inv_eq_mul]
  have hround : (roundEven (q * 2 ^ k) : ℚ) ≤ (n * 2 ^ k : ℤ) := by
    refine Int.cast_le.2 (roundEven_le ?_)
    push_cast
    exact mul_le_mul_of_nonneg_right h hpow.le
  rw [mul_inv_le_iff₀ hpow]
  exact_mod_cast hround

end SingBox.Lib
