import EffectFusion.Scalar
import Mathlib.Data.Rat.Floor
import Mathlib.Tactic.Linarith
import Mathlib.Tactic.NormNum

/-!
# Scores over exact numbers

`Extended` holds the rational numbers, both infinities and one value that is no number, with the
operations of doubles as they are without rounding.  There is one zero, and it counts as positive
in a divisor.  Scores are bounded over these numbers whatever they are made from: clamping brings
every value into its interval, and four decimal places do not lead out of an interval whose ends
have four.

* `within_clamp`       clamped values, those of what is no number included;
* `within_round4`      four places inside of an interval;
* `within_score`       scores;
* `within_score_smaller`   the score of what is held below a cap.
-/

namespace EffectFusion.Number

/-- a rational number, an infinity or no number -/
inductive Extended
  | value (q : ℚ)
  | infinite (positive : Bool)
  | undefined
  deriving DecidableEq

namespace Extended

/-! ### Arithmetic -/

def neg : Extended → Extended
  | value q => value (-q)
  | infinite s => infinite (!s)
  | undefined => undefined

/-- two infinities of different sign have no sum -/
def add : Extended → Extended → Extended
  | value p, value q => value (p + q)
  | infinite s, infinite t => if s = t then infinite s else undefined
  | infinite s, value _ => infinite s
  | value _, infinite t => infinite t
  | undefined, _ | _, undefined => undefined

/-- zero times an infinity is no number -/
def mul : Extended → Extended → Extended
  | value p, value q => value (p * q)
  | infinite s, infinite t => infinite (s = t)
  | infinite s, value q | value q, infinite s =>
    if q = 0 then undefined else infinite (s = decide (0 < q))
  | undefined, _ | _, undefined => undefined

/-- zero by zero and an infinity by an infinity are no numbers -/
def div : Extended → Extended → Extended
  | value p, value q =>
    if q ≠ 0 then value (p / q) else if p = 0 then undefined else infinite (0 < p)
  | infinite s, value q => infinite (s = decide (0 ≤ q))
  | value _, infinite _ => value 0
  | infinite _, infinite _ => undefined
  | undefined, _ | _, undefined => undefined

/-- nothing is less than what is no number, and that is less than nothing -/
def less : Extended → Extended → Bool
  | value p, value q => p < q
  | infinite s, infinite t => !s && t
  | infinite s, value _ => !s
  | value _, infinite t => t
  | undefined, _ | _, undefined => false

def atMost : Extended → Extended → Bool
  | value p, value q => p ≤ q
  | infinite s, infinite t => !s || t
  | infinite s, value _ => !s
  | value _, infinite t => t
  | undefined, _ | _, undefined => false

/-- nearest whole number, a half goes away from zero -/
def wholeOf (q : ℚ) : ℤ := if 0 ≤ q then ⌊q + 1 / 2⌋ else ⌈q - 1 / 2⌉

def nearest : Extended → Extended
  | value q => value (wholeOf q)
  | v => v

end Extended

/-- What exact numbers leave open: a square root need not be rational, a dense order has no places
in the whole numbers, and a fraction has no one text.  All that is said of scores holds for every
choice. -/
class Choices where
  root : Extended → Extended
  place : Extended → Int
  text : Extended → String

instance [Choices] : Scalar Extended where
  add := Extended.add
  sub a b := a.add b.neg
  mul := Extended.mul
  div := Extended.div
  neg := Extended.neg
  ofScientific m s e := .value (OfScientific.ofScientific m s e)
  less := Extended.less
  atMost := Extended.atMost
  isNumber v := v ≠ .undefined
  isFinite
    | .value _ => true
    | _ => false
  nearest := Extended.nearest
  sqrt := Choices.root
  ofNat n := .value n
  infinity := .infinite true
  place := Choices.place
  text := Choices.text

namespace Extended

open Scalar

/-- a number between two rational ones -/
def Within (low high : ℚ) : Extended → Prop
  | value q => low ≤ q ∧ q ≤ high
  | _ => False

theorem Within.mono {low high low' high' : ℚ} {v : Extended} (h : Within low high v)
    (hlow : low' ≤ low) (hhigh : high ≤ high') : Within low' high' v := by
  cases v with
  | value q => exact ⟨hlow.trans h.1, h.2.trans hhigh⟩
  | infinite s => exact h
  | undefined => exact h

instance (low high : ℚ) : (v : Extended) → Decidable (v.Within low high)
  | value q => inferInstanceAs (Decidable (low ≤ q ∧ q ≤ high))
  | infinite _ | undefined => inferInstanceAs (Decidable False)

/-! ### Whole numbers -/

theorem le_wholeOf {a : ℤ} {q : ℚ} (h : a ≤ q) : a ≤ wholeOf q := by
  unfold wholeOf
  split
  · rw [Int.le_floor]
    linarith
  · rw [Int.le_iff_lt_add_one, ← sub_lt_iff_lt_add, Int.lt_ceil]
    push_cast
    linarith

theorem wholeOf_le {b : ℤ} {q : ℚ} (h : q ≤ b) : wholeOf q ≤ b := by
  unfold wholeOf
  split
  · rw [Int.le_iff_lt_add_one, Int.floor_lt]
    push_cast
    linarith
  · rw [Int.ceil_le]
    linarith

section

variable [Choices]

/-! ### Literals -/

theorem zero_eq : (0.0 : Extended) = value 0 := congrArg value (by norm_num)

theorem one_eq : (1.0 : Extended) = value 1 := congrArg value (by norm_num)

theorem tenThousand_eq : (10000.0 : Extended) = value 10000 := congrArg value (by norm_num)

/-! ### Clamping and rounding -/

theorem clamp_value (low high q : ℚ) : clamp (value low) (value high) (value q) =
    value (if q < low then low else if high < q then high else q) := by
  show (if decide (q < low) = true then value low
    else if decide (high < q) = true then value high else value q) = _
  simp only [decide_eq_true_eq, apply_ite value]

theorem within_clamp {low high : ℚ} (h : low ≤ high) (v : Extended) :
    Within low high (clamp (value low) (value high) v) := by
  have hlow : Within low high (value low) := ⟨le_refl low, h⟩
  have hhigh : Within low high (value high) := ⟨h, le_refl high⟩
  cases v with
  | undefined => exact hlow
  | infinite s =>
    cases s with
    | true => exact hhigh
    | false => exact hlow
  | value q =>
    rw [clamp_value]
    split
    · exact hlow
    · split
      · exact hhigh
      · rename_i hl hh
        exact ⟨not_lt.1 hl, not_lt.1 hh⟩

theorem within_clampUnit (v : Extended) : Within 0 1 (clampUnit v) := by
  rw [clampUnit, zero_eq, one_eq]
  exact within_clamp zero_le_one v

theorem round4_value (q : ℚ) : round4 (value q) = value (wholeOf (q * 10000) / 10000) := by
  rw [round4, tenThousand_eq]
  show div (value (wholeOf (q * 10000))) (value 10000) = _
  rw [div, if_pos (by norm_num)]

/-- four places do not lead out of an interval whose ends have four -/
theorem within_round4 {a b : ℤ} {v : Extended} (h : Within (a / 10000) (b / 10000) v) :
    Within (a / 10000) (b / 10000) (round4 v) := by
  cases v with
  | undefined => exact absurd h id
  | infinite s => exact absurd h id
  | value q =>
    obtain ⟨hlow, hhigh⟩ := h
    -- the ends are whole numbers of ten thousandths, which rounding does not pass
    have hlow : a ≤ wholeOf (q * 10000) := le_wholeOf (by linarith)
    have hhigh : wholeOf (q * 10000) ≤ b := wholeOf_le (by linarith)
    have hlow : (a : ℚ) ≤ wholeOf (q * 10000) := by exact_mod_cast hlow
    have hhigh : (wholeOf (q * 10000) : ℚ) ≤ b := by exact_mod_cast hhigh
    rw [round4_value]
    exact ⟨by linarith, by linarith⟩

theorem within_score (v : Extended) : Within 0 1 (score v) := by
  have h : Within ((0 : ℤ) / 10000) ((10000 : ℤ) / 10000) (score v) :=
    within_round4 ((within_clampUnit v).mono (by norm_num) (by norm_num))
  exact h.mono (by norm_num) (by norm_num)

/-! ### Caps -/

theorem atMost_of_within {low high : ℚ} {v : Extended} (h : Within low high v) :
    Scalar.atMost v (value high) = true := by
  cases v with
  | value q => exact decide_eq_true h.2
  | infinite s => exact absurd h id
  | undefined => exact absurd h id

theorem atMost_smaller (v : Extended) (cap : ℚ) :
    Scalar.atMost (smaller v (value cap)) (value cap) = true := by
  have hcap : Scalar.atMost (value cap) (value cap) = true := decide_eq_true (le_refl cap)
  cases v with
  | undefined => exact hcap
  | infinite s =>
    cases s with
    | true => exact hcap
    | false => rfl
  | value q =>
    show Scalar.atMost (if decide (cap < q) = true then value cap else value q) (value cap) = true
    split
    · exact hcap
    · rename_i h
      exact decide_eq_true (not_lt.1 (fun hlt => h (decide_eq_true hlt)))

/-- clamping does not lead above a cap that is not below zero -/
theorem within_clampUnit_of_atMost {v : Extended} {cap : ℚ} (hcap : 0 ≤ cap)
    (h : Scalar.atMost v (value cap) = true) : Within 0 cap (clampUnit v) := by
  cases v with
  | undefined => cases h
  | infinite s =>
    cases s with
    | true => cases h
    | false =>
      show Within 0 cap (0.0 : Extended)
      rw [zero_eq]
      exact ⟨le_refl 0, hcap⟩
  | value q =>
    have hq : q ≤ cap := of_decide_eq_true h
    rw [clampUnit, zero_eq, one_eq, clamp_value]
    split
    · exact ⟨le_refl 0, hcap⟩
    · rename_i hzero
      split
      · rename_i hone
        exact ⟨zero_le_one, (le_of_lt hone).trans hq⟩
      · exact ⟨not_lt.1 hzero, hq⟩

theorem within_score_smaller (v : Extended) {b : ℤ} (hb : 0 ≤ b) :
    Within 0 (b / 10000) (score (smaller v (value (b / 10000)))) := by
  have hcap : (0 : ℚ) ≤ b / 10000 := div_nonneg (by exact_mod_cast hb) (by norm_num)
  have hclamp := within_clampUnit_of_atMost hcap (atMost_smaller v (b / 10000))
  have h : Within ((0 : ℤ) / 10000) (b / 10000) (score (smaller v (value (b / 10000)))) :=
    within_round4 (hclamp.mono (by norm_num) (le_refl _))
  exact h.mono (by norm_num) (le_refl _)

end

end Extended

end EffectFusion.Number
