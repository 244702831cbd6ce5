import Mathlib.Probability.Distributions.Uniform
import Mathlib.Probability.ProductMeasure

/-!
# Streams of uniform draws

Independent draws from the numbers below `n` come to every one of these numbers, almost surely.
-/

namespace SingBox.Lib

open MeasureTheory

/-- A number below `n`, or zero. -/
noncomputable def uniformBelow (n : ℕ) : PMF ℕ :=
  PMF.uniformOfFinset (Finset.range (max n 1)) (Finset.nonempty_range_iff.2 (Nat.ne_of_gt (le_max_right n 1)))

noncomputable def uniformDraws (n : ℕ) : Measure (ℕ → ℕ) := Measure.infinitePi fun _ => (uniformBelow n).toMeasure

lemma uniformBelow_compl_lt {n x : ℕ} (hx : x < n) : (uniformBelow n).toMeasure {x}ᶜ < 1 := by
  have hpos : 0 < (uniformBelow n).toMeasure {x} := by
    rw [PMF.toMeasure_apply_singleton _ _ (measurableSet_singleton x)]
    refine pos_iff_ne_zero.2 ((PMF.mem_support_iff _ _).1 ?_)
    rw [uniformBelow, PMF.support_uniformOfFinset]
    exact Finset.mem_coe.2 (Finset.mem_range.2 (lt_max_of_lt_left hx))
  rw [prob_compl_eq_one_sub (measurableSet_singleton x)]
  exact ENNReal.sub_lt_self ENNReal.one_ne_top one_ne_zero hpos.ne'

lemma uniformDraws_avoid {n x : ℕ} (hx : x < n) : uniformDraws n {ω | ∀ i, ω i ≠ x} = 0 := by
  -- the first `k` of them avoid it with a probability that goes to zero
  have hle : ∀ k, uniformDraws n {ω | ∀ i, ω i ≠ x} ≤ (uniformBelow n).toMeasure {x}ᶜ ^ k := by
    intro k
    calc uniformDraws n {ω | ∀ i, ω i ≠ x}
        ≤ uniformDraws n (Set.pi (Finset.range k) fun _ => {x}ᶜ) := measure_mono fun ω hω i _ => hω i
      _ = ∏ _i ∈ Finset.range k, (uniformBelow n).toMeasure {x}ᶜ :=
          Measure.infinitePi_pi _ fun _ _ => (measurableSet_singleton x).compl
      _ = (uniformBelow n).toMeasure {x}ᶜ ^ k := by rw [Finset.prod_const, Finset.card_range]
  have hlim := ENNReal.tendsto_pow_atTop_nhds_zero_of_lt_one (uniformBelow_compl_lt hx)
  exact nonpos_iff_eq_zero.1 (ge_of_tendsto' hlim hle)

/-- **Almost every stream of draws comes to every number.** -/
theorem ae_uniformDraws (n : ℕ) : ∀ᵐ ω ∂uniformDraws n, ∀ x < n, ∃ i, ω i = x := by
  refine ae_all_iff.2 fun x => ?_
  by_cases hx : x < n
  · refine (ae_iff.2 ?_).mono fun ω h _ => h
    simpa using uniformDraws_avoid hx
  · exact Filter.Eventually.of_forall fun ω h => absurd h hx

end SingBox.Lib
