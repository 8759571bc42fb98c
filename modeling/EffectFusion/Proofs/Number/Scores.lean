import EffectFusion.Proofs.Number.Magnitude
import EffectFusion.Scalar

/-!
# The size of scores

What is clamped lies between the bounds and so is no larger than they are, whatever was clamped;
and rounding to four places keeps a double of moderate size finite.  So every score is finite.

* `below_of_between`   what two finite doubles enclose is finite;
* `below_clamp`        clamped values, those of what is no number included;
* `below_round4`       four places;
* `below_score`        scores.
-/

namespace EffectFusion.Number

open Float.Model Float.Model.UnpackedFloat Scalar

section

variable {x y low high v : Float} {j k : Int}

/-! ### Between two doubles -/

theorem lt_iff : x < y ↔ x.toModel.unpack.compare y.toModel.unpack = some .lt := by
  show decide ((_ == some Ordering.lt) = true) = true ↔ _
  rw [decide_eq_true_eq, beq_iff_eq]

theorem le_iff : x ≤ y ↔ (x.toModel.unpack.compare y.toModel.unpack).any (·.isLE) = true := by
  show decide (_ = true) = true ↔ _
  rw [decide_eq_true_eq]
  rfl

theorem compare_swap (u w : UnpackedFloat) : w.compare u = (u.compare w).map Ordering.swap := by
  have hfinite : ∀ (e e' : Int) (m m' : Nat), (compare e' e).then (compare m' m) =
      ((compare e e').then (compare m m')).swap := by
    intro e e' m m'
    rw [Ordering.swap_then, Int.compare_swap, Nat.compare_swap]
  cases u with
  | notANumber => cases w <;> rfl
  | infinity s =>
    cases w with
    | infinity s' => cases s <;> cases s' <;> rfl
    | _ => cases s <;> rfl
  | zero s =>
    cases w with
    | infinity s' => cases s' <;> rfl
    | finite s' m' e' _ => cases s' <;> rfl
    | _ => rfl
  | finite s m e _ =>
    cases w with
    | infinity s' => cases s <;> cases s' <;> rfl
    | zero s' => cases s <;> rfl
    | notANumber => cases s <;> rfl
    | finite s' m' e' _ =>
      cases s <;> cases s'
      · exact congrArg (fun o => some o.swap) (hfinite e e' m m')
      · rfl
      · rfl
      · exact congrArg some (hfinite e e' m m')

theorem not_lt_of_le (h : x ≤ y) : ¬ y < x := by
  rw [le_iff] at h
  rw [lt_iff, compare_swap x.toModel.unpack]
  intro hlt
  obtain ⟨o, ho, hswap⟩ := Option.map_eq_some_iff.1 hlt
  rw [ho] at h
  cases o <;> cases hswap
  cases h

/-- of two positive doubles the one with the larger exponent is larger -/
theorem then_eq_lt {e e' : Int} {o : Ordering} (h : e < e') : (compare e e').then o = .lt := by
  rw [Int.compare_eq_lt.2 h]
  rfl

theorem then_eq_gt {e e' : Int} {o : Ordering} (h : e' < e) : (compare e e').then o = .gt := by
  rw [Int.compare_eq_gt.2 h]
  rfl

section Beyond

variable {u : UnpackedFloat} {m : Nat} {e : Int} {hm : 0 < m}

theorem compare_negative_infinity (h : Bounded k u) :
    (infinity .negative).compare u = some .lt := by
  match u, h with
  | .zero _, _ => rfl
  | .finite .negative .., _ => rfl
  | .finite .positive .., _ => rfl

theorem compare_positive_infinity (h : Bounded k u) :
    u.compare (infinity .positive) = some .lt := by
  match u, h with
  | .zero _, _ => rfl
  | .finite .negative .., _ => rfl
  | .finite .positive .., _ => rfl

/-- a negative double whose exponent passes a bound is below all within the bound -/
theorem compare_negative (h : Bounded k u) (hk : k < e + 53) :
    (finite .negative m e hm).compare u = some .lt := by
  match u, h with
  | .zero _, _ => rfl
  | .finite .positive .., _ => rfl
  | .finite .negative m' e' _, h =>
    have he : e' < e := by
      have hle := h.2
      omega
    exact congrArg (fun o => some (Ordering.swap o)) (then_eq_gt he)

theorem compare_positive (h : Bounded k u) (hk : k < e + 53) :
    u.compare (finite .positive m e hm) = some .lt := by
  match u, h with
  | .zero _, _ => rfl
  | .finite .negative .., _ => rfl
  | .finite .positive m' e' _, h =>
    have he : e' < e := by
      have hle := h.2
      omega
    exact congrArg some (then_eq_lt he)

end Beyond

theorem below_of_between (hlow : Below k low) (hhigh : Below k high) (hnumber : v.isNaN = false)
    (h1 : ¬ v < low) (h2 : ¬ high < v) : Below k v := by
  have hnumber : v.toModel.unpack.isNaN = false := hnumber
  rw [lt_iff] at h1 h2
  unfold Below
  cases hv : v.toModel.unpack with
  | notANumber =>
    rw [hv] at hnumber
    cases hnumber
  | zero s => trivial
  | infinity s =>
    rw [hv] at h1 h2
    cases s with
    | negative => exact h1 (compare_negative_infinity hlow)
    | positive => exact h2 (compare_positive_infinity hhigh)
  | finite s m e hm =>
    refine ⟨mantissa_lt_of_unpack hv, ?_⟩
    rw [hv] at h1 h2
    by_contra hk
    cases s with
    | negative => exact h1 (compare_negative hlow (by omega))
    | positive => exact h2 (compare_positive hhigh (by omega))

theorem below_clamp (hlow : Below k low) (hhigh : Below k high) (v : Float) :
    Below k (clamp low high v) := by
  unfold clamp
  split
  · exact hlow
  · rename_i hnumber
    split
    · exact hlow
    · rename_i h1
      split
      · exact hhigh
      · rename_i h2
        have hnumber : v.isNaN = false := by simpa [isNumber] using hnumber
        exact below_of_between hlow hhigh hnumber (by simpa [less] using h1)
          (by simpa [less] using h2)

theorem below_zero : Below k 0.0 := trivial

theorem below_one : Below 1 1.0 := ⟨by decide, by decide⟩

theorem below_of_isUnit (h : isUnit v = true) : Below 1 v := by
  simp only [isUnit, Bool.and_eq_true] at h
  obtain ⟨⟨hfinite, hlow⟩, hhigh⟩ := h
  have hlow : (0.0 : Float) ≤ v := by simpa [atMost] using hlow
  have hhigh : v ≤ (1.0 : Float) := by simpa [atMost] using hhigh
  refine below_of_between below_zero below_one ?_ (not_lt_of_le hlow) (not_lt_of_le hhigh)
  have hfinite : v.toModel.unpack.isFinite = true := hfinite
  show v.toModel.unpack.isNaN = false
  cases hv : v.toModel.unpack with
  | notANumber =>
    rw [hv] at hfinite
    cases hfinite
  | _ => rfl

/-! ### Scores -/

theorem numerator_lt {b : Binary} (h : Binary.ofFloat? x = some b) (hneg : ¬ 0 ≤ b.exponent) :
    b.numerator < 2 ^ 53 := by
  have hmantissa : b.mantissa < 2 ^ 53 := by
    have hfraction : fractionField x < 2 ^ 52 := Nat.mod_lt _ (twoTo_pos 52)
    have hpower : twoTo 52 = 2 ^ 52 := rfl
    unfold Binary.ofFloat? at h
    simp only at h
    split at h
    · cases h
    · split at h
      · obtain rfl := Option.some.inj h
        show fractionField x < 2 ^ 53
        omega
      · obtain rfl := Option.some.inj h
        show fractionField x + twoTo 52 < 2 ^ 53
        omega
  have hexponent : b.exponent.toNat = 0 := by omega
  rw [Binary.numerator, hexponent]
  show b.mantissa * 1 < 2 ^ 53
  omega

theorem quotient_lt {b : Binary} (h : Binary.ofFloat? x = some b) (hneg : ¬ 0 ≤ b.exponent) :
    (2 * b.numerator + b.denominator) / (2 * b.denominator) < 2 ^ 53 := by
  have hnumerator := numerator_lt h hneg
  have hdenominator := b.denominator_pos
  exact Nat.div_lt_of_lt_mul (by omega)

theorem below_nearest (h : Below k x) (hk : 56 ≤ k) (hk' : k ≤ 1023) : Below k (nearest x) := by
  show Below k (nearestWhole x)
  unfold nearestWhole
  split
  · exact h
  · rename_i b hb
    split
    · exact h
    · rename_i hneg
      have hn := (below_ofNat (quotient_lt hb hneg)).mono hk
      simp only
      split
      · exact below_neg hn (by omega) hk'
      · exact hn

theorem below_round4 (h : Below k x) (hk : 41 ≤ k) (hk' : k ≤ 900) : Below (k + 55) (round4 x) := by
  have hscaled := below_mul h below_tenThousand (by omega) (by omega)
  have hwhole := below_nearest hscaled (by omega) (by omega)
  have hquotient := below_div hwhole (by omega) (by omega)
  rwa [show k + 55 = k + 14 + 1 + 40 by omega]

theorem below_clampUnit (v : Float) : Below 1 (clampUnit v) :=
  below_clamp below_zero below_one v

theorem below_score (v : Float) : Below 96 (score v) :=
  below_round4 (below_clampUnit v |>.mono (by decide)) (le_refl 41) (by decide)

end

end EffectFusion.Number
