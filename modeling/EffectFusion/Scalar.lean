import EffectFusion.Number.Notation

/-!
# The numbers that scores are made of

Scores are computed with any number type that has the operations of `Scalar`.  Programs run on
doubles; the same definitions can be read over exact numbers, where a statement about a score
is one about arithmetic and not about rounding.
-/

namespace EffectFusion

/-- The operations that scores need.  `less` and `atMost` are false when one side is no number. -/
class Scalar (F : Type) extends Add F, Sub F, Mul F, Div F, Neg F, OfScientific F where
  less : F → F → Bool
  atMost : F → F → Bool
  isNumber : F → Bool
  isFinite : F → Bool
  /-- nearest whole number, a half goes away from zero -/
  nearest : F → F
  sqrt : F → F
  ofNat : Nat → F
  infinity : F
  /-- place in a total order of all values, the ones that are no number included -/
  place : F → Int
  /-- as messages show it -/
  text : F → String

instance : Scalar Float where
  less a b := a < b
  atMost a b := a ≤ b
  isNumber a := !a.isNaN
  isFinite a := a.isFinite
  nearest := Number.nearestWhole
  sqrt := Float.sqrt
  ofNat := Float.ofNat
  infinity := 1.0 / 0.0
  place := Number.orderPlace
  text := Number.plain

namespace Scalar

variable {F : Type} [Scalar F]

/-- `v` brought into `[low, high]`; what is no number becomes the lower end -/
def clamp (low high v : F) : F :=
  if !isNumber v then low
  else if less v low then low
  else if less high v then high
  else v

/-- `v` brought into the unit interval -/
def clampUnit (v : F) : F := clamp 0.0 1.0 v

/-- as `clamp`, where a number needs an interval that is not empty -/
def clampChecked? (low high v : F) : Option F :=
  if isNumber v && !atMost low high then none else some (clamp low high v)

/-- four decimal places -/
def round4 (v : F) : F := nearest (v * 10000.0) / 10000.0

/-- a number in the unit interval with four decimal places -/
def score (v : F) : F := round4 (clampUnit v)

/-- a number of the unit interval -/
def isUnit (v : F) : Bool := isFinite v && atMost 0.0 v && atMost v 1.0

/-- the sum from left to right; that of nothing is the zero that changes no other number -/
def sum (vs : List F) : F := vs.foldl (· + ·) (-0.0)

/-- the larger number; what is no number gives way -/
def larger (a b : F) : F :=
  if !isNumber a then b else if !isNumber b then a else if less a b then b else a

/-- the smaller number; what is no number gives way -/
def smaller (a b : F) : F :=
  if !isNumber a then b else if !isNumber b then a else if less b a then b else a

end Scalar

end EffectFusion
