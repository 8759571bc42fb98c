import EffectFusion.Number.Binary
import Mathlib

/-!
# How large a double can become

`Below k x` says that `x` is a finite double of size less than `2^k`.  Rounding adds at most one to
`k`, so a product or quotient of such doubles is one with a larger `k`, and it is finite as long as
`k` does not pass the largest exponent.  Nothing is said about how well a result is rounded.

The operations take a double apart, work on mantissa and exponent, and put the result together
again.  `Bounded` is the same property of the parts.

* `bounded_round`         rounding to 53 bits adds at most one;
* `bounded_unpack_pack`   what is put together within the bounds is taken apart within them;
* `below_mul`, `below_div`, `below_ofNat`, `below_neg`   the operations.
-/

namespace EffectFusion.Number

open Float.Model Float.Model.UnpackedFloat

/-! ### Shifting a mantissa -/

theorem mantissa_shiftRight (em : ExtendedMantissa) (n : Nat) :
    (em >>> n).mantissa = em.mantissa / 2 ^ n := by
  induction n with
  | zero => exact (Nat.div_one em.mantissa).symm
  | succ n ih =>
    show (em >>> n).mantissa / 2 = _
    rw [ih, Nat.div_div_eq_div_mul, pow_succ]

theorem mantissa_ofMantissaAndAccuracy (m : Nat) (acc : Accuracy) :
    (ExtendedMantissa.ofMantissaAndAccuracy m acc).mantissa = m := by
  match acc with
  | .exact | .inexact .lt | .inexact .eq | .inexact .gt => rfl

theorem roundedMantissa_le (em : ExtendedMantissa) : em.roundedMantissa ≤ em.mantissa + 1 := by
  match em with
  | ⟨m, false, false⟩ | ⟨m, false, true⟩ => exact Nat.le_succ m
  | ⟨m, true, false⟩ =>
    have h := Nat.mod_lt m (show 0 < 2 by decide)
    show m + m % 2 ≤ m + 1
    omega
  | ⟨m, true, true⟩ => exact Nat.le_refl (m + 1)

theorem targetExponent_eq (t : Int) :
    Format.binary64.targetExponent t = max (t - 53) (-1074) := rfl

theorem shift_spec (m : Nat) (e : Int) (acc : Accuracy) :
    (shiftToTargetExponent .binary64 m e acc).1.mantissa < 2 ^ 53 ∧
      (shiftToTargetExponent .binary64 m e acc).2 =
        max e (max (totalExponent m e - 53) (-1074)) := by
  have hlog : m < 2 ^ (m.log2 + 1) := Nat.lt_log2_self
  unfold shiftToTargetExponent shiftToExponent
  rw [targetExponent_eq]
  simp only [totalExponent]
  generalize hs : (max ((m.log2 : Int) + 1 + e - 53) (-1074) - e).toNat = shift
  refine ⟨?_, by omega⟩
  rw [mantissa_shiftRight, mantissa_ofMantissaAndAccuracy]
  refine Nat.div_lt_of_lt_mul ?_
  rw [← pow_add]
  exact hlog.trans_le (Nat.pow_le_pow_right (by decide) (by omega))

/-! ### Bounded parts -/

/-- zero, or finite with a mantissa of at most 53 bits and of size less than `2^k` -/
def Bounded (k : Int) : UnpackedFloat → Prop
  | .zero _ => True
  | .finite _ m e _ => m < 2 ^ 53 ∧ e + 53 ≤ k
  | .infinity _ | .notANumber => False

theorem isFinite_of_bounded {k : Int} {u : UnpackedFloat} (h : Bounded k u) :
    u.isFinite = true := by
  match u, h with
  | .zero _, _ => rfl
  | .finite .., _ => rfl

theorem bounded_neg {k : Int} {u : UnpackedFloat} (h : Bounded k u) : Bounded k u.neg := by
  match u, h with
  | .zero _, _ => trivial
  | .finite .., h => exact h

theorem log2_lt {m k : Nat} (h : m < 2 ^ k) (hk : 0 < k) : m.log2 < k := by
  by_cases hm : m = 0
  · rw [hm, Nat.log2_zero]
    exact hk
  · exact (Nat.log2_lt hm).2 h

/-- rounding to 53 bits adds at most one -/
theorem bounded_round {s : Sign} {m : Nat} {e k : Int} {acc : Accuracy}
    (ht : totalExponent m e ≤ k) (he : e + 53 ≤ k) (hk : -1021 ≤ k) :
    Bounded (k + 1) (roundWithAccuracy .binary64 s m e acc) := by
  obtain ⟨hm₁, he₁⟩ := shift_spec m e acc
  have hr := roundedMantissa_le (shiftToTargetExponent .binary64 m e acc).1
  obtain ⟨hm₂, he₂⟩ := shift_spec (shiftToTargetExponent .binary64 m e acc).1.roundedMantissa
    (shiftToTargetExponent .binary64 m e acc).2 .exact
  -- the second shift is needed when rounding made the mantissa `2^53`
  have hlog : (shiftToTargetExponent .binary64 m e acc).1.roundedMantissa.log2 < 54 :=
    log2_lt (lt_of_le_of_lt hr (by omega)) (by decide)
  unfold roundWithAccuracy
  simp only
  split
  · trivial
  · refine ⟨hm₂, ?_⟩
    rw [he₂, he₁]
    unfold totalExponent at ht ⊢
    omega

theorem bounded_mul {x y : UnpackedFloat} {j k : Int} (hx : Bounded j x) (hy : Bounded k y)
    (hjk : -1021 ≤ j + k) : Bounded (j + k + 1) (UnpackedFloat.mul .binary64 x y) := by
  match x, hx, y, hy with
  | .zero _, _, .zero _, _ => trivial
  | .zero _, _, .finite .., _ => trivial
  | .finite .., _, .zero _, _ => trivial
  | .finite s₁ m₁ e₁ _, hx, .finite s₂ m₂ e₂ _, hy =>
    have hm : m₁ * m₂ < 2 ^ 106 := by
      have h := Nat.mul_lt_mul'' hx.1 hy.1
      rwa [← pow_add] at h
    have hlog := log2_lt hm (by decide)
    have h1 := hx.2
    have h2 := hy.2
    refine bounded_round (k := j + k) ?_ (by omega) hjk
    unfold totalExponent
    omega

/-- dividing by what is no smaller than `2^-c` -/
theorem bounded_div {x : UnpackedFloat} {s : Sign} {m : Nat} {e k c : Int} {hm : 0 < m}
    (hx : Bounded k x) (he : -c ≤ e) (hkc : -1021 ≤ k + c) :
    Bounded (k + c + 1) (UnpackedFloat.div .binary64 x (.finite s m e hm)) := by
  match x, hx with
  | .zero _, _ => trivial
  | .finite s₁ m₁ e₁ _, hx =>
    have h1 := hx.2
    show Bounded _ (roundWithAccuracy .binary64 (s₁ / s) (divCore .binary64 m₁ e₁ m e).1
      (divCore .binary64 m₁ e₁ m e).2.1 (divCore .binary64 m₁ e₁ m e).2.2)
    unfold divCore
    simp only
    generalize htarget : min (e₁ - e)
      (Format.binary64.targetExponent (totalExponent m₁ e₁ - totalExponent m e)) = target
    have hle : target ≤ e₁ - e := htarget ▸ min_le_left _ _
    generalize hs : (e₁ - e - target).toNat = shift
    have hq : m₁ <<< shift / m < 2 ^ (53 + shift) := by
      refine lt_of_le_of_lt (Nat.div_le_self _ m) ?_
      rw [Nat.shiftLeft_eq, pow_add]
      exact Nat.mul_lt_mul_of_pos_right hx.1 (Nat.two_pow_pos shift)
    have hlog := log2_lt hq (by omega)
    refine bounded_round ?_ (by omega) hkc
    unfold totalExponent
    omega

theorem bounded_ofNat {n : Nat} (h : n < 2 ^ 53) :
    Bounded 54 (UnpackedFloat.ofNat .binary64 n) := by
  unfold UnpackedFloat.ofNat UnpackedFloat.ofInt UnpackedFloat.normalize
  split
  · rename_i hlt
    rw [Int.compare_eq_lt] at hlt
    omega
  · trivial
  · rw [Int.toNat_natCast]
    have hlog := log2_lt h (by decide)
    unfold UnpackedFloat.round decreaseExponent
    rw [targetExponent_eq]
    simp only [totalExponent]
    generalize hs : ((0 : Int) - max ((n.log2 : Int) + 1 + 0 - 53) (-1074)).toNat = shift
    have hm : n <<< shift < 2 ^ (n.log2 + 1 + shift) := by
      rw [Nat.shiftLeft_eq, pow_add]
      exact Nat.mul_lt_mul_of_pos_right Nat.lt_log2_self (Nat.two_pow_pos shift)
    have hlog' := log2_lt hm (by omega)
    refine bounded_round (k := 53) ?_ (by omega) (by decide)
    unfold totalExponent
    omega

/-! ### Taking a double apart and putting it together -/

theorem mantissa_lt_of_unpack {b : BitVec Format.binary64.numBits} {s : Sign} {m : Nat} {e : Int}
    {h : 0 < m} (hb : UnpackedFloat.unpack .binary64 b = .finite s m e h) : m < 2 ^ 53 := by
  unfold UnpackedFloat.unpack at hb
  simp only at hb
  split at hb
  · split at hb <;> cases hb
  · split at hb
    · split at hb
      · cases hb
      · injection hb with _ hm _
        have hlt : (unpackMantissa b).toNat < 2 ^ 52 := (unpackMantissa b).isLt
        omega
    · injection hb with _ hm _
      rw [← hm]
      exact (1#1 ++ unpackMantissa b).isLt

/-- the field of the exponent bounds the size -/
theorem bounded_unpack {b : BitVec Format.binary64.numBits} {k : Int} (h0 : 0 ≤ k) (h1 : k ≤ 1023)
    (hb : ((unpackExponent b).toNat : Int) ≤ k + 1022) :
    Bounded k (UnpackedFloat.unpack .binary64 b) := by
  have hbias : (Format.binary64.exponentBias : Int) = 1023 := rfl
  cases hu : UnpackedFloat.unpack .binary64 b with
  | zero s => trivial
  | finite s m e hm =>
    refine ⟨mantissa_lt_of_unpack hu, ?_⟩
    unfold UnpackedFloat.unpack at hu
    simp only [hbias] at hu
    split at hu
    · split at hu <;> cases hu
    · split at hu
      · rename_i hzero
        split at hu
        · cases hu
        · injection hu with _ _ he
          rw [hzero] at he
          have he : (0 : Int) - (1023 + 52) + 1 = e := he
          omega
      · injection hu with _ _ he
        omega
  | _ =>
    have hne : unpackExponent b ≠ -1#_ := by
      intro h
      rw [h] at hb
      have hmax : ((-1#_ : BitVec Format.binary64.exponentBits).toNat : Int) = 2047 := rfl
      omega
    unfold UnpackedFloat.unpack at hu
    simp only [if_neg hne] at hu
    split at hu
    · split at hu <;> cases hu
    · cases hu

theorem bounded_unpack_pack {u : UnpackedFloat} {k : Int} (h : Bounded k u) (h0 : 0 ≤ k)
    (h1 : k ≤ 1023) :
    Bounded k (UnpackedFloat.unpack .binary64 (UnpackedFloat.pack .binary64 u)) := by
  refine bounded_unpack h0 h1 ?_
  match u, h with
  | .zero s, _ =>
    show ((unpackExponent (packComponents .binary64 s 0 0)).toNat : Int) ≤ _
    rw [unpackExponent_packComponents]
    show (0 : Int) ≤ _
    omega
  | .finite s m e hm, h =>
    have he := h.2
    have hbias : ((Format.binary64.exponentBias : Int) +
        (Format.binary64.mantissaBitsWithoutImplicit : Int)) = 1075 := rfl
    unfold UnpackedFloat.pack
    simp only [add_assoc, hbias]
    have hfield : (2 : Nat) ^ Format.binary64.exponentBits = 2048 := rfl
    split
    · omega
    · split
      · rw [unpackExponent_packComponents, BitVec.toNat_ofNat]
        have hle := Nat.mod_le (e + 1075).toNat (2 ^ Format.binary64.exponentBits)
        omega
      · rw [unpackExponent_packComponents]
        show (0 : Int) ≤ _
        omega

/-! ### Doubles -/

/-- finite and of size less than `2^k` -/
def Below (k : Int) (x : Float) : Prop := Bounded k x.toModel.unpack

section Doubles

variable {x y : Float} {j k : Int}

theorem isFinite_of_below (h : Below k x) : x.isFinite = true := isFinite_of_bounded h

theorem Below.mono (h : Below j x) (hjk : j ≤ k) : Below k x := by
  unfold Below at h ⊢
  match hx : x.toModel.unpack, h with
  | .zero _, _ => trivial
  | .finite .., h => exact ⟨h.1, h.2.trans hjk⟩

theorem below_mul (hx : Below j x) (hy : Below k y) (h0 : 0 ≤ j + k) (h1 : j + k ≤ 1022) :
    Below (j + k + 1) (x * y) :=
  bounded_unpack_pack (bounded_mul hx hy (by omega)) (by omega) (by omega)

theorem below_neg (h : Below k x) (h0 : 0 ≤ k) (h1 : k ≤ 1023) : Below k (-x) :=
  bounded_unpack_pack (bounded_neg h) h0 h1

theorem below_div (h : Below k x) (h0 : 0 ≤ k) (h1 : k ≤ 983) : Below (k + 40) (x / 10000.0) := by
  obtain ⟨hm, hunpack⟩ : ∃ hm, (10000.0 : Float).toModel.unpack =
      .finite .positive 5497558138880000 (-39) hm := ⟨by decide, rfl⟩
  have hdiv : Bounded (k + 40)
      (UnpackedFloat.div .binary64 x.toModel.unpack (10000.0 : Float).toModel.unpack) := by
    rw [hunpack, show k + 40 = k + 39 + 1 by omega]
    exact bounded_div h (le_refl (-39)) (by omega)
  exact bounded_unpack_pack hdiv (by omega) (by omega)

theorem below_tenThousand : Below 14 10000.0 := ⟨by decide, by decide⟩

/-- a small number is scaled by the first power of ten -/
theorem ofNat_eq_mul {n : Nat} (h : n < 2 ^ 53) :
    Float.ofNat n = n.toUInt64.toFloat * Float.ofBits 0x3FF0000000000000 := by
  show Float.ofScientific n false 0 = _
  unfold Float.ofScientific
  rw [dif_pos ⟨h, by decide⟩]
  rfl

theorem below_ofNat {n : Nat} (h : n < 2 ^ 53) : Below 56 (Float.ofNat n) := by
  have hword : n.toUInt64.toNat = n := by
    show n % 2 ^ 64 = n
    omega
  have hfloat : Below 54 n.toUInt64.toFloat := by
    refine bounded_unpack_pack ?_ (by decide) (by decide)
    show Bounded 54 (UnpackedFloat.ofNat .binary64 n.toUInt64.toNat)
    rw [hword]
    exact bounded_ofNat h
  have hone : Below 1 (Float.ofBits 0x3FF0000000000000) := ⟨by decide, by decide⟩
  rw [ofNat_eq_mul h]
  exact below_mul hfloat hone (by decide) (by decide)

end Doubles

end EffectFusion.Number
