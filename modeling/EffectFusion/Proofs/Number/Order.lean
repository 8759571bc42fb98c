import EffectFusion.Proofs.Number.Scores

/-!
# The order of doubles

The doubles that are numbers stand on a ladder: `rung x` is how many of them there are from zero to
`x`, counted down below zero, and it is what the bits of `x` say without the sign.  Both zeros stand
on rung `0`.  Comparing two numbers is comparing their rungs, so `<` and `≤` have the laws of whole
numbers as long as every side is a number.

The places of the total order of all bit patterns are the rungs with the negative side moved down by
one, which parts the two zeros.

* `unpacked`               what the three fields of a double stand for;
* `lt_iff_rung`, `le_iff_rung`   comparisons are comparisons of rungs;
* `isFinite_iff`           finite doubles, by the field of the exponent;
* `orderPlace_lt_iff`      the total order: `<`, and `-0.0` below `0.0`.
-/

namespace EffectFusion.Number

open Float.Model Float.Model.UnpackedFloat

section

variable {x y : Float} {u w : UnpackedFloat} {s s' : Sign} {m m' : Nat} {e e' : Int}

/-! ### The three fields of a double -/

theorem exponentField_lt (x : Float) : exponentField x < 2 ^ 11 := Nat.mod_lt _ (twoTo_pos 11)

theorem fractionField_lt (x : Float) : fractionField x < 2 ^ 52 := Nat.mod_lt _ (twoTo_pos 52)

theorem signBit_iff (x : Float) : signBit x = true ↔ 2 ^ 63 ≤ x.toBits.toNat := by
  unfold signBit
  rw [decide_eq_true_eq]
  exact Iff.rfl

/-- the bits, from the lowest field to the sign -/
theorem bits_eq (x : Float) : x.toBits.toNat =
    fractionField x + exponentField x * 2 ^ 52 + (if signBit x = true then 2 ^ 63 else 0) := by
  have hlt : x.toBits.toNat < 2 ^ 64 := x.toBits.toNat_lt
  have hfraction : fractionField x = x.toBits.toNat % 2 ^ 52 := rfl
  have hexponent : exponentField x = x.toBits.toNat / 2 ^ 52 % 2 ^ 11 := rfl
  split
  · rename_i hsign
    rw [signBit_iff] at hsign
    omega
  · rename_i hsign
    rw [signBit_iff] at hsign
    omega

def signOf (x : Float) : Sign := if signBit x then .negative else .positive

theorem unpackExponent_toNat (x : Float) :
    (@unpackExponent .binary64 x.toBits.toBitVec).toNat = exponentField x := by
  unfold unpackExponent exponentField
  rw [BitVec.toNat_cast, BitVec.extractLsb_toNat, Nat.shiftRight_eq_div_pow]
  rfl

theorem unpackMantissa_toNat (x : Float) :
    (@unpackMantissa .binary64 x.toBits.toBitVec).toNat = fractionField x := by
  unfold unpackMantissa fractionField
  rw [BitVec.toNat_cast, BitVec.extractLsb_toNat, Nat.shiftRight_zero]
  rfl

theorem unpackSign_eq (x : Float) :
    Sign.ofBitVec (@unpackSign .binary64 x.toBits.toBitVec) = signOf x := by
  have hlt : x.toBits.toNat < 2 ^ 64 := x.toBits.toNat_lt
  have hbit : (@unpackSign .binary64 x.toBits.toBitVec).toNat =
      x.toBits.toNat / 2 ^ 63 % 2 := by
    unfold unpackSign
    rw [BitVec.toNat_cast, BitVec.extractLsb_toNat, Nat.shiftRight_eq_div_pow]
    rfl
  unfold Sign.ofBitVec signOf
  split
  · rename_i hzero
    rw [hzero] at hbit
    have hbit : 0 = x.toBits.toNat / 2 ^ 63 % 2 := hbit
    rw [if_neg (by rw [signBit_iff]; omega)]
  · rename_i hone
    have hne : x.toBits.toNat / 2 ^ 63 % 2 ≠ 0 := by
      rw [← hbit]
      exact fun h => hone (BitVec.eq_of_toNat_eq h)
    rw [if_pos (by rw [signBit_iff]; omega)]

theorem toNat_one_append {k : Nat} (v : BitVec k) : (1#1 ++ v).toNat = 2 ^ k + v.toNat := by
  rw [BitVec.toNat_append, ← Nat.shiftLeft_add_eq_or_of_lt v.isLt, Nat.shiftLeft_eq]
  show 1 * _ + _ = _
  rw [one_mul]

/-- what sign, exponent and fraction stand for -/
inductive Unpacked (s : Sign) : Nat → Nat → UnpackedFloat → Prop
  | infinity : Unpacked s 2047 0 (.infinity s)
  | notANumber {f : Nat} : 0 < f → Unpacked s 2047 f .notANumber
  | zero : Unpacked s 0 0 (.zero s)
  | subnormal {f : Nat} (h : 0 < f) : Unpacked s 0 f (.finite s f (-1074) h)
  | normal {e f : Nat} (h : 0 < 2 ^ 52 + f) : 0 < e → e < 2047 →
      Unpacked s e f (.finite s (2 ^ 52 + f) (e - 1075) h)

theorem unpacked (x : Float) :
    Unpacked (signOf x) (exponentField x) (fractionField x) x.toModel.unpack := by
  have hexponent := unpackExponent_toNat x
  have hfraction := unpackMantissa_toNat x
  have hlt := exponentField_lt x
  show Unpacked _ _ _ (UnpackedFloat.unpack .binary64 x.toBits.toBitVec)
  unfold UnpackedFloat.unpack
  simp only [unpackSign_eq, hexponent, hfraction, toNat_one_append]
  split
  · rename_i htop
    rw [htop] at hexponent
    rw [← hexponent]
    split
    · rename_i hnone
      rw [hnone] at hfraction
      rw [← hfraction]
      exact .infinity
    · rename_i hsome
      refine .notANumber (Nat.pos_of_ne_zero fun h => hsome (BitVec.eq_of_toNat_eq ?_))
      rw [hfraction, h]
      rfl
  · rename_i htop
    split
    · rename_i hbottom
      rw [hbottom] at hexponent
      rw [← hexponent]
      split
      · rename_i hnone
        rw [hnone] at hfraction
        rw [← hfraction]
        exact .zero
      · rename_i hsome
        refine .subnormal (Nat.pos_of_ne_zero fun h => hsome (BitVec.eq_of_toNat_eq ?_))
        rw [hfraction, h]
        rfl
    · rename_i hbottom
      have hpos : exponentField x ≠ 0 := by
        intro h
        refine hbottom (BitVec.eq_of_toNat_eq ?_)
        rw [hexponent, h]
        rfl
      have hne : exponentField x ≠ 2047 := by
        intro h
        refine htop (BitVec.eq_of_toNat_eq ?_)
        rw [hexponent, h]
        rfl
      exact .normal _ (by omega) (by omega)

theorem isFinite_iff : x.isFinite = true ↔ exponentField x ≠ 2047 := by
  have hx := unpacked x
  show x.toModel.unpack.isFinite = true ↔ _
  generalize x.toModel.unpack = u at hx
  generalize exponentField x = e at hx
  generalize fractionField x = f at hx
  cases hx with
  | infinity => exact iff_of_false nofun (fun h => h rfl)
  | notANumber => exact iff_of_false nofun (fun h => h rfl)
  | zero => exact iff_of_true rfl (by omega)
  | subnormal => exact iff_of_true rfl (by omega)
  | normal _ _ h => exact iff_of_true rfl (by omega)

theorem number_of_isFinite (h : x.isFinite = true) : x.isNaN = false := by
  have h : x.toModel.unpack.isFinite = true := h
  show x.toModel.unpack.isNaN = false
  cases hu : x.toModel.unpack with
  | notANumber =>
    rw [hu] at h
    cases h
  | _ => rfl

/-! ### Comparing the parts -/

/-- mantissa and exponent as they are read off the bits of a double -/
def Canonical : UnpackedFloat → Prop
  | .finite _ m e _ => m < 2 ^ 53 ∧ -1074 ≤ e ∧ e ≤ 971 ∧ (e = -1074 ∨ 2 ^ 52 ≤ m)
  | _ => True

theorem canonical_unpack (x : Float) : Canonical x.toModel.unpack := by
  have hx := unpacked x
  have hlt := fractionField_lt x
  generalize x.toModel.unpack = u at hx
  generalize fractionField x = f at hx hlt
  generalize exponentField x = e at hx
  cases hx with
  | subnormal => exact ⟨by omega, by omega, by omega, .inl rfl⟩
  | normal => exact ⟨by omega, by omega, by omega, .inr (by omega)⟩
  | _ => trivial

/-- the rung of what is taken apart; what is no number has none -/
def steps : UnpackedFloat → Int
  | .finite s m e _ => s.apply ((e + 1074) * 2 ^ 52 + m)
  | .infinity s => s.apply (2047 * 2 ^ 52)
  | .zero _ | .notANumber => 0

theorem steps_bounds {hm : 0 < m} (h : Canonical (.finite s m e hm)) :
    0 < (e + 1074) * 2 ^ 52 + (m : Int) ∧ (e + 1074) * 2 ^ 52 + (m : Int) < 2047 * 2 ^ 52 := by
  obtain ⟨h1, h2, h3, -⟩ := h
  omega

/-- the exponent decides, and with the same exponent the mantissa -/
theorem then_eq_lt_iff {hm : 0 < m} {hm' : 0 < m'} (h : Canonical (.finite s m e hm))
    (h' : Canonical (.finite s' m' e' hm')) : (compare e e').then (compare m m') = .lt ↔
      (e + 1074) * 2 ^ 52 + (m : Int) < (e' + 1074) * 2 ^ 52 + (m' : Int) := by
  obtain ⟨h1, h2, -, h3⟩ := h
  obtain ⟨h1', h2', -, h3'⟩ := h'
  rw [Ordering.then_eq_lt, Int.compare_eq_lt, Int.compare_eq_eq, Nat.compare_eq_lt]
  omega

theorem compare_eq_lt_iff (hu : Canonical u) (hw : Canonical w) (hu' : u.isNaN = false)
    (hw' : w.isNaN = false) : u.compare w = some .lt ↔ steps u < steps w := by
  cases u with
  | notANumber => cases hu'
  | zero s =>
    cases w with
    | notANumber => cases hw'
    | zero s' => exact iff_of_false nofun (lt_irrefl 0)
    | infinity s' => cases s' <;> simp [UnpackedFloat.compare, steps, Sign.apply]
    | finite s' m' e' hm' =>
      have h' := steps_bounds hw
      cases s' <;> simp [UnpackedFloat.compare, steps, Sign.apply] <;> omega
  | infinity s =>
    cases w with
    | notANumber => cases hw'
    | zero s' => cases s <;> simp [UnpackedFloat.compare, steps, Sign.apply]
    | infinity s' =>
      cases s <;> cases s'
      · exact iff_of_false nofun (lt_irrefl _)
      · exact iff_of_true rfl (by decide)
      · exact iff_of_false nofun (by decide)
      · exact iff_of_false nofun (lt_irrefl _)
    | finite s' m' e' hm' =>
      have h' := steps_bounds hw
      cases s <;> cases s' <;> simp [UnpackedFloat.compare, steps, Sign.apply] <;> omega
  | finite s m e hm =>
    have h := steps_bounds hu
    cases w with
    | notANumber => cases hw'
    | zero s' => cases s <;> simp [UnpackedFloat.compare, steps, Sign.apply] <;> omega
    | infinity s' =>
      cases s <;> cases s' <;> simp [UnpackedFloat.compare, steps, Sign.apply] <;> omega
    | finite s' m' e' hm' =>
      have h' := steps_bounds hw
      cases s <;> cases s'
      · -- below zero the larger size is the smaller number
        rw [steps, steps, Sign.apply, Sign.apply, neg_lt_neg_iff, ← then_eq_lt_iff hw hu,
          ← Int.compare_swap, ← Nat.compare_swap, ← Ordering.swap_then]
        exact Option.some_inj
      · exact iff_of_true rfl (by rw [steps, steps, Sign.apply, Sign.apply]; omega)
      · exact iff_of_false nofun (by rw [steps, steps, Sign.apply, Sign.apply]; omega)
      · exact Option.some_inj.trans (then_eq_lt_iff hu hw)

/-! ### Comparing doubles -/

/-- how many doubles there are from zero to a number, counted down below zero -/
def rung (x : Float) : Int := (signOf x).apply (exponentField x * 2 ^ 52 + fractionField x : Nat)

theorem steps_unpack (h : x.isNaN = false) : steps x.toModel.unpack = rung x := by
  have hx := unpacked x
  have hnumber : x.toModel.unpack.isNaN = false := h
  unfold rung
  generalize x.toModel.unpack = u at hx hnumber
  generalize fractionField x = f at hx
  generalize exponentField x = e at hx
  generalize signOf x = s at hx
  cases hx with
  | notANumber => cases hnumber
  | infinity => rfl
  | zero => cases s <;> rfl
  | subnormal => exact congrArg s.apply (by omega)
  | normal => exact congrArg s.apply (by omega)

theorem numbers_of_compare {o : Ordering} (h : u.compare w = some o) :
    u.isNaN = false ∧ w.isNaN = false := by
  cases u with
  | notANumber => cases h
  | _ =>
    cases w with
    | notANumber => cases h
    | _ => exact ⟨rfl, rfl⟩

theorem lt_iff_rung : x < y ↔ (x.isNaN = false ∧ y.isNaN = false) ∧ rung x < rung y := by
  rw [lt_iff]
  constructor
  · intro h
    obtain ⟨hx, hy⟩ := numbers_of_compare h
    refine ⟨⟨hx, hy⟩, ?_⟩
    rw [← steps_unpack hx, ← steps_unpack hy]
    exact (compare_eq_lt_iff (canonical_unpack x) (canonical_unpack y) hx hy).1 h
  · rintro ⟨⟨hx, hy⟩, h⟩
    rw [← steps_unpack hx, ← steps_unpack hy] at h
    exact (compare_eq_lt_iff (canonical_unpack x) (canonical_unpack y) hx hy).2 h

theorem compare_isSome (hu : u.isNaN = false) (hw : w.isNaN = false) :
    ∃ o, u.compare w = some o := by
  cases u with
  | notANumber => cases hu
  | zero s =>
    cases w with
    | notANumber => cases hw
    | zero s' => exact ⟨_, rfl⟩
    | _ s' => cases s' <;> exact ⟨_, rfl⟩
  | infinity s =>
    cases w with
    | notANumber => cases hw
    | infinity s' => cases s <;> cases s' <;> exact ⟨_, rfl⟩
    | _ => cases s <;> exact ⟨_, rfl⟩
  | finite s =>
    cases w with
    | notANumber => cases hw
    | zero s' => cases s <;> exact ⟨_, rfl⟩
    | _ s' => cases s <;> cases s' <;> exact ⟨_, rfl⟩

theorem le_iff_not_lt (hx : x.isNaN = false) (hy : y.isNaN = false) : x ≤ y ↔ ¬ y < x := by
  refine ⟨not_lt_of_le, fun h => ?_⟩
  obtain ⟨o, ho⟩ := compare_isSome (u := x.toModel.unpack) (w := y.toModel.unpack) hx hy
  rw [lt_iff, compare_swap x.toModel.unpack, ho] at h
  rw [le_iff, ho]
  cases o with
  | gt => exact absurd rfl h
  | _ => rfl

theorem le_iff_rung : x ≤ y ↔ (x.isNaN = false ∧ y.isNaN = false) ∧ rung x ≤ rung y := by
  constructor
  · intro h
    obtain ⟨o, ho, -⟩ := (Option.any_eq_true _ _).1 (le_iff.1 h)
    obtain ⟨hx, hy⟩ := numbers_of_compare ho
    have hle := not_lt_of_le h
    rw [lt_iff_rung] at hle
    exact ⟨⟨hx, hy⟩, not_lt.1 fun hlt => hle ⟨⟨hy, hx⟩, hlt⟩⟩
  · rintro ⟨⟨hx, hy⟩, h⟩
    rw [le_iff_not_lt hx hy, lt_iff_rung]
    exact fun hlt => absurd hlt.2 (not_lt.2 h)

theorem le_of_number (h : x.isNaN = false) : x ≤ x := le_iff_rung.2 ⟨⟨h, h⟩, le_refl _⟩

theorem le_trans {z : Float} (hxy : x ≤ y) (hyz : y ≤ z) : x ≤ z := by
  obtain ⟨⟨hx, -⟩, hxy⟩ := le_iff_rung.1 hxy
  obtain ⟨⟨-, hz⟩, hyz⟩ := le_iff_rung.1 hyz
  exact le_iff_rung.2 ⟨⟨hx, hz⟩, hxy.trans hyz⟩

theorem le_of_lt (h : x < y) : x ≤ y := by
  obtain ⟨hnumbers, hrung⟩ := lt_iff_rung.1 h
  exact le_iff_rung.2 ⟨hnumbers, hrung.le⟩

/-! ### The total order -/

theorem toBits_inj : x.toBits.toNat = y.toBits.toNat ↔ x = y := by
  constructor
  · intro h
    obtain ⟨⟨bits, valid⟩⟩ := x
    obtain ⟨⟨bits', valid'⟩⟩ := y
    obtain rfl : bits = bits' := UInt64.toNat_inj.1 h
    rfl
  · rintro rfl
    rfl

theorem orderPlace_eq (x : Float) :
    orderPlace x = if signBit x = true then rung x - 1 else rung x := by
  have hbits := bits_eq x
  have htop : twoTo 63 = 2 ^ 63 := rfl
  unfold orderPlace rung signOf
  simp only [htop]
  by_cases hsign : signBit x = true
  · rw [if_pos hsign] at hbits
    rw [if_pos hsign, if_pos hsign, if_neg (by omega), Sign.apply]
    omega
  · have hlt : ¬ 2 ^ 63 ≤ x.toBits.toNat := by rwa [← signBit_iff]
    rw [if_neg hsign] at hbits
    rw [if_neg hsign, if_neg hsign, if_pos (by omega), Sign.apply]
    omega

theorem orderPlace_inj : orderPlace x = orderPlace y ↔ x = y := by
  have htop : twoTo 63 = 2 ^ 63 := rfl
  rw [← toBits_inj]
  unfold orderPlace
  simp only [htop]
  split <;> split <;> omega

theorem rung_nonpos (h : signBit x = true) : rung x ≤ 0 := by
  unfold rung signOf
  rw [if_pos h, Sign.apply]
  omega

theorem rung_nonneg (h : ¬ signBit x = true) : 0 ≤ rung x := by
  unfold rung signOf
  rw [if_neg h, Sign.apply]
  omega

theorem eq_zero_iff (x : Float) :
    (x = -0.0 ↔ signBit x = true ∧ rung x = 0) ∧ (x = 0.0 ↔ ¬ signBit x = true ∧ rung x = 0) := by
  have hbits := bits_eq x
  have hminus : (-0.0 : Float).toBits.toNat = 2 ^ 63 := rfl
  have hplus : (0.0 : Float).toBits.toNat = 0 := rfl
  rw [← toBits_inj, ← toBits_inj, hminus, hplus]
  unfold rung signOf
  split
  · rename_i hsign
    rw [if_pos hsign] at hbits
    rw [Sign.apply]
    exact ⟨⟨fun h => ⟨hsign, by omega⟩, fun h => by omega⟩,
      ⟨fun h => by omega, fun h => absurd hsign h.1⟩⟩
  · rename_i hsign
    have hlt : ¬ 2 ^ 63 ≤ x.toBits.toNat := by rwa [← signBit_iff]
    rw [if_neg hsign] at hbits
    rw [Sign.apply]
    exact ⟨⟨fun h => by omega, fun h => absurd h.1 hsign⟩,
      ⟨fun h => ⟨hsign, by omega⟩, fun h => by omega⟩⟩

/-- the total order of numbers is `<`, and of the two zeros `-0.0` is below -/
theorem orderPlace_lt_iff (hx : x.isNaN = false) (hy : y.isNaN = false) :
    orderPlace x < orderPlace y ↔ x < y ∨ (x = -0.0 ∧ y = 0.0) := by
  rw [lt_iff_rung, (eq_zero_iff x).1, (eq_zero_iff y).2, orderPlace_eq, orderPlace_eq]
  simp only [hx, hy, and_self, true_and]
  by_cases hsx : signBit x = true
  · have hnonpos := rung_nonpos hsx
    by_cases hsy : signBit y = true
    · simp only [hsx, hsy, if_true, not_true, false_and, and_false, or_false]
      omega
    · have hnonneg := rung_nonneg hsy
      simp only [hsx, hsy, if_true, not_false_iff, true_and, Bool.false_eq_true, if_false]
      omega
  · have hnonneg := rung_nonneg hsx
    simp only [hsx, false_and, or_false, Bool.false_eq_true, if_false]
    split
    · rename_i hsy
      have hnonpos := rung_nonpos hsy
      omega
    · exact Iff.rfl

end

end EffectFusion.Number
