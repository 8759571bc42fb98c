import EffectFusion.Proofs.Number.Order

/-!
# Signs of scores

A score is never `-0.0` as long as the sign of what it is made from is plus, and then the total order
of all bit patterns and `≤` say the same of it.  A product or a sum of numbers that are not below
zero may be `-0.0` when all of them are, so two properties are followed through the operations:
`Plus`, where the sign is plus, and `NotBelow`, where `-0.0` may be one of the operands.

* `plus_add`, `plus_mul`, `plus_div`   operations on what was taken apart;
* `plus_unpack_pack`                   putting together keeps the sign;
* `hasPlus_score`                      scores;
* `orderPlace_le_iff`                  the total order of numbers whose sign is plus.
-/

namespace EffectFusion.Number

open Float.Model Float.Model.UnpackedFloat Scalar

/-! ### Signs of the parts -/

/-- the sign is plus, also that of a zero; what is no number has no sign -/
def Plus : UnpackedFloat → Prop
  | .zero s | .infinity s | .finite s _ _ _ => s = .positive
  | .notANumber => True

/-- as `Plus`, but a zero may have any sign -/
def NotBelow : UnpackedFloat → Prop
  | .infinity s | .finite s _ _ _ => s = .positive
  | .zero _ | .notANumber => True

section

variable {u w : UnpackedFloat}

theorem Plus.notBelow (h : Plus u) : NotBelow u := by
  cases u with
  | zero s => trivial
  | _ => exact h

theorem NotBelow.zero_or_plus (h : NotBelow u) : (∃ s, u = .zero s) ∨ Plus u := by
  cases u with
  | zero s => exact .inl ⟨s, rfl⟩
  | _ => exact .inr h

theorem plus_round (m : Nat) (e : Int) (acc : Accuracy) :
    Plus (roundWithAccuracy .binary64 .positive m e acc) := by
  unfold roundWithAccuracy
  simp only
  split <;> rfl

theorem plus_normalize {m : Int} (h : 0 ≤ m) (e : Int) :
    Plus (UnpackedFloat.normalize .binary64 m e .positive) := by
  unfold UnpackedFloat.normalize
  split
  · rename_i hlt
    rw [Int.compare_eq_lt] at hlt
    omega
  · rfl
  · exact plus_round _ _ _

/-- a sum has the sign plus as soon as one of its sides has it -/
theorem plus_add (hu : Plus u) (hw : NotBelow w) : Plus (UnpackedFloat.add .binary64 u w) := by
  match u, hu, w, hw with
  | .notANumber, _, _, _ => trivial
  | .infinity _, _, .notANumber, _ => trivial
  | .zero _, _, .notANumber, _ => trivial
  | .finite .., _, .notANumber, _ => trivial
  | .infinity .positive, _, .infinity .positive, _ => rfl
  | .infinity .positive, _, .zero _, _ => rfl
  | .infinity .positive, _, .finite .., _ => rfl
  | .zero .positive, _, .infinity .positive, _ => rfl
  | .finite .., _, .infinity .positive, _ => rfl
  | .zero .positive, _, .zero s, _ => cases s <;> rfl
  | .zero .positive, _, .finite .positive .., _ => rfl
  | .finite .positive .., _, .zero _, _ => rfl
  | .finite .positive m e _, _, .finite .positive m' e' _, _ =>
    exact plus_normalize (Int.add_nonneg (Int.natCast_nonneg _) (Int.natCast_nonneg _)) _

theorem notBelow_add (hu : NotBelow u) (hw : NotBelow w) :
    NotBelow (UnpackedFloat.add .binary64 u w) := by
  rcases hu.zero_or_plus with ⟨s, rfl⟩ | hplus
  · -- a zero leaves all but a zero as it is
    cases w with
    | zero s' => cases s <;> cases s' <;> trivial
    | notANumber => trivial
    | infinity _ => exact hw
    | finite => exact hw
  · exact (plus_add hplus hw).notBelow

theorem plus_mul (hu : Plus u) (hw : Plus w) : Plus (UnpackedFloat.mul .binary64 u w) := by
  match u, hu, w, hw with
  | .notANumber, _, _, _ => trivial
  | .infinity _, _, .notANumber, _ => trivial
  | .zero _, _, .notANumber, _ => trivial
  | .finite .., _, .notANumber, _ => trivial
  | .infinity _, _, .zero _, _ => trivial
  | .zero _, _, .infinity _, _ => trivial
  | .infinity .positive, _, .infinity .positive, _ => rfl
  | .infinity .positive, _, .finite .positive .., _ => rfl
  | .finite .positive .., _, .infinity .positive, _ => rfl
  | .zero .positive, _, .zero .positive, _ => rfl
  | .zero .positive, _, .finite .positive .., _ => rfl
  | .finite .positive .., _, .zero .positive, _ => rfl
  | .finite .positive .., _, .finite .positive .., _ => exact plus_round _ _ _

theorem notBelow_mul (hu : NotBelow u) (hw : NotBelow w) :
    NotBelow (UnpackedFloat.mul .binary64 u w) := by
  rcases hu.zero_or_plus with ⟨s, rfl⟩ | hplus
  · cases w <;> trivial
  · rcases hw.zero_or_plus with ⟨s, rfl⟩ | hplus'
    · cases u <;> trivial
    · exact (plus_mul hplus hplus').notBelow

theorem plus_div {m : Nat} {e : Int} {hm : 0 < m} (hu : Plus u) :
    Plus (UnpackedFloat.div .binary64 u (.finite .positive m e hm)) := by
  match u, hu with
  | .notANumber, _ => trivial
  | .infinity .positive, _ => rfl
  | .zero .positive, _ => rfl
  | .finite .positive .., _ => exact plus_round _ _ _

/-! ### Taking apart and putting together -/

theorem plus_unpack {b : BitVec Format.binary64.numBits} (h : unpackSign b = 0#1) :
    Plus (UnpackedFloat.unpack .binary64 b) := by
  have hsign : Sign.ofBitVec (unpackSign b) = .positive := by
    rw [h]
    rfl
  unfold UnpackedFloat.unpack
  simp only [hsign]
  split
  · split <;> trivial
  · split
    · split <;> trivial
    · trivial

theorem plus_unpack_pack (h : Plus u) :
    Plus (UnpackedFloat.unpack .binary64 (UnpackedFloat.pack .binary64 u)) := by
  have hpacked : ∀ e m, Plus (UnpackedFloat.unpack .binary64 (packComponents .binary64 .positive e m)) :=
    fun e m => plus_unpack (unpackSign_packComponents _ e m)
  match u, h with
  | .notANumber, _ =>
    rw [show UnpackedFloat.pack .binary64 .notANumber = packedNaN .binary64 from rfl,
      unpack_packedNaN]
    trivial
  | .infinity .positive, _ => exact hpacked _ _
  | .zero .positive, _ => exact hpacked _ _
  | .finite .positive m e hm, _ =>
    unfold UnpackedFloat.pack
    simp only
    split
    · exact hpacked _ _
    · split
      · exact hpacked _ _
      · exact hpacked _ _

theorem notBelow_unpack_pack (h : NotBelow u) :
    NotBelow (UnpackedFloat.unpack .binary64 (UnpackedFloat.pack .binary64 u)) := by
  rcases h.zero_or_plus with ⟨s, rfl⟩ | hplus
  · rw [show UnpackedFloat.pack .binary64 (.zero s) = packedZero .binary64 s from rfl,
      unpack_packedZero]
    trivial
  · exact (plus_unpack_pack hplus).notBelow

end

/-! ### Doubles -/

/-- the sign of a double is plus -/
def HasPlus (x : Float) : Prop := Plus x.toModel.unpack

/-- a double is not below zero, or it is no number -/
def NotNegative (x : Float) : Prop := NotBelow x.toModel.unpack

section

variable {x y v : Float}

theorem hasPlus_add (hx : HasPlus x) (hy : NotNegative y) : HasPlus (x + y) :=
  plus_unpack_pack (plus_add hx hy)

theorem notNegative_add (hx : NotNegative x) (hy : NotNegative y) : NotNegative (x + y) :=
  notBelow_unpack_pack (notBelow_add hx hy)

theorem hasPlus_mul (hx : HasPlus x) (hy : HasPlus y) : HasPlus (x * y) :=
  plus_unpack_pack (plus_mul hx hy)

theorem notNegative_mul (hx : NotNegative x) (hy : NotNegative y) : NotNegative (x * y) :=
  notBelow_unpack_pack (notBelow_mul hx hy)

theorem hasPlus_div (h : HasPlus x) : HasPlus (x / 10000.0) := by
  obtain ⟨hm, hunpack⟩ : ∃ hm, (10000.0 : Float).toModel.unpack =
      .finite .positive 5497558138880000 (-39) hm := ⟨by decide, rfl⟩
  have hdiv : Plus (UnpackedFloat.div .binary64 x.toModel.unpack (10000.0 : Float).toModel.unpack) := by
    rw [hunpack]
    exact plus_div h
  exact plus_unpack_pack hdiv

theorem hasPlus_ofNat {n : Nat} (h : n < 2 ^ 53) : HasPlus (Float.ofNat n) := by
  have hfloat : HasPlus n.toUInt64.toFloat :=
    plus_unpack_pack (plus_normalize (Int.natCast_nonneg _) 0)
  have hone : HasPlus (Float.ofBits 0x3FF0000000000000) := rfl
  rw [ofNat_eq_mul h]
  exact hasPlus_mul hfloat hone

theorem notNegative_of_le (h : (0.0 : Float) ≤ v) : NotNegative v := by
  have hcompare : ((UnpackedFloat.zero .positive).compare v.toModel.unpack).any (·.isLE) = true :=
    le_iff.1 h
  unfold NotNegative
  generalize v.toModel.unpack = u at hcompare
  cases u with
  | infinity s => cases s <;> first | rfl | cases hcompare
  | finite s => cases s <;> first | rfl | cases hcompare
  | _ => trivial

theorem notNegative_of_isUnit (h : isUnit v = true) : NotNegative v := by
  simp only [isUnit, Bool.and_eq_true] at h
  exact notNegative_of_le (by simpa [atMost] using h.1.2)

/-! ### The field of the sign -/

theorem signBit_of_hasPlus (h : HasPlus x) (hnumber : x.isNaN = false) : ¬ signBit x = true := by
  intro hsign
  have hx := unpacked x
  have hnumber : x.toModel.unpack.isNaN = false := hnumber
  rw [signOf, if_pos hsign] at hx
  unfold HasPlus at h
  generalize x.toModel.unpack = u at hx h hnumber
  generalize exponentField x = e at hx
  generalize fractionField x = f at hx
  cases hx with
  | notANumber => cases hnumber
  | _ => cases h

/-- for numbers with the sign plus the total order of bit patterns is `≤` -/
theorem orderPlace_le_iff (hx : HasPlus x) (hy : HasPlus y) (hx' : x.isNaN = false)
    (hy' : y.isNaN = false) : orderPlace x ≤ orderPlace y ↔ x ≤ y := by
  rw [le_iff_rung, orderPlace_eq, orderPlace_eq, if_neg (signBit_of_hasPlus hx hx'),
    if_neg (signBit_of_hasPlus hy hy')]
  exact ⟨fun h => ⟨⟨hx', hy'⟩, h⟩, fun h => h.2⟩

/-! ### Scores -/

theorem hasPlus_clampUnit (h : HasPlus v) : HasPlus (clampUnit v) := by
  unfold clampUnit clamp
  split
  · rfl
  · split
    · rfl
    · split
      · rfl
      · exact h

theorem negative_of_ofFloat? {b : Binary} (h : Binary.ofFloat? x = some b) :
    x.isNaN = false ∧ b.negative = signBit x := by
  unfold Binary.ofFloat? at h
  simp only at h
  split at h
  · cases h
  · rename_i htop
    refine ⟨number_of_isFinite (isFinite_iff.2 htop), ?_⟩
    split at h
    · exact congrArg Binary.negative (Option.some.inj h).symm
    · exact congrArg Binary.negative (Option.some.inj h).symm

theorem hasPlus_nearest (h : HasPlus x) : HasPlus (nearest x) := by
  show HasPlus (nearestWhole x)
  unfold nearestWhole
  split
  · exact h
  · rename_i b hb
    split
    · exact h
    · rename_i hneg
      obtain ⟨hnumber, hsign⟩ := negative_of_ofFloat? hb
      rw [hsign, if_neg (signBit_of_hasPlus h hnumber)]
      exact hasPlus_ofNat (quotient_lt hb hneg)

theorem hasPlus_score (h : HasPlus v) : HasPlus (score v) := by
  have htenThousand : HasPlus 10000.0 := rfl
  exact hasPlus_div (hasPlus_nearest (hasPlus_mul (hasPlus_clampUnit h) htenThousand))

end

end EffectFusion.Number
