import EffectFusion.Proofs.Number.Exact

/-!
# The order of exact scores

Over exact numbers a larger value never has a smaller score: clamping, rounding to whole numbers and
the division by ten thousand are monotone one by one.  A score is a whole number of ten-thousandths,
whatever it was made from, so places of such numbers are enough to put scores in order.

* `score_mono`         larger values have larger scores;
* `atMost_iff_place`   the order of scores is that of their places.
-/

namespace EffectFusion.Number.Extended

open Scalar

theorem wholeOf_mono {p q : ℚ} (h : p ≤ q) : wholeOf p ≤ wholeOf q := by
  unfold wholeOf
  split
  · rename_i hp
    rw [if_pos (hp.trans h)]
    exact Int.floor_le_floor (by linarith)
  · rename_i hp
    split
    · rename_i hq
      -- below zero rounding does not reach above it
      have hceil : ⌈p - 1 / 2⌉ ≤ 0 := Int.ceil_le.2 (by push_cast; linarith)
      exact hceil.trans (Int.floor_nonneg.2 (by linarith))
    · exact Int.ceil_le_ceil (by linarith)

section

variable [Choices]

theorem atMost_value (p q : ℚ) : Scalar.atMost (value p) (value q) = true ↔ p ≤ q :=
  decide_eq_true_iff

/-- `q` brought into the unit interval -/
def held (q : ℚ) : ℚ := max 0 (min q 1)

theorem clampUnit_value (q : ℚ) : clampUnit (value q) = value (held q) := by
  rw [clampUnit, zero_eq, one_eq, clamp_value]
  congr 1
  unfold held
  split
  · rename_i hq
    rw [min_eq_left (by linarith), max_eq_left hq.le]
  · rename_i hq
    have hq : 0 ≤ q := not_lt.1 hq
    split
    · rename_i hone
      rw [min_eq_right hone.le, max_eq_right zero_le_one]
    · rename_i hone
      rw [min_eq_left (not_lt.1 hone), max_eq_right hq]

theorem score_value (q : ℚ) : score (value q) = value (wholeOf (held q * 10000) / 10000) := by
  rw [score, clampUnit_value, round4_value]

/-- **Larger values have larger scores.** -/
theorem score_mono {p q : ℚ} (h : p ≤ q) :
    Scalar.atMost (score (value p)) (score (value q)) = true := by
  have hheld : held p ≤ held q := max_le_max_left 0 (min_le_min_right 1 h)
  have hwhole : wholeOf (held p * 10000) ≤ wholeOf (held q * 10000) :=
    wholeOf_mono (by linarith)
  have hwhole : (wholeOf (held p * 10000) : ℚ) ≤ wholeOf (held q * 10000) := by
    exact_mod_cast hwhole
  rw [score_value, score_value, atMost_value]
  linarith

/-! ### Places of scores -/

/-- every score is a whole number of ten-thousandths -/
theorem score_eq (v : Extended) : ∃ n : ℤ, score v = value (n / 10000) := by
  have hunit := within_clampUnit v
  unfold score
  cases hv : clampUnit v with
  | value q => exact ⟨_, round4_value q⟩
  | infinite s =>
    rw [hv] at hunit
    exact absurd hunit id
  | undefined =>
    rw [hv] at hunit
    exact absurd hunit id

/-- the places of numbers with four decimal places follow their order -/
def PlacesInOrder : Prop :=
  ∀ m n : ℤ, m < n → Choices.place (value (m / 10000)) < Choices.place (value (n / 10000))

theorem place_le_iff (h : PlacesInOrder) (m n : ℤ) :
    place (value (m / 10000)) ≤ place (value (n / 10000)) ↔ m ≤ n := by
  constructor
  · intro hle
    by_contra hlt
    exact absurd (h n m (not_le.1 hlt)) (not_lt.2 hle)
  · intro hle
    rcases hle.lt_or_eq with hlt | rfl
    · exact (h m n hlt).le
    · exact le_refl _

theorem atMost_iff_place (h : PlacesInOrder) (v w : Extended) :
    Scalar.atMost (score v) (score w) = true ↔ place (score v) ≤ place (score w) := by
  obtain ⟨m, hm⟩ := score_eq v
  obtain ⟨n, hn⟩ := score_eq w
  rw [hm, hn, place_le_iff h, atMost_value, div_le_div_iff_of_pos_right (by norm_num)]
  exact Int.cast_le

end

end EffectFusion.Number.Extended
