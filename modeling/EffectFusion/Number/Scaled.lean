import EffectFusion.Number.Literal

/-!
# Numbers of data files

A numeral of a data file does not become the nearest double.  Its digits are gathered into a whole
number as long as that stays below `2^64`; this number becomes a double, which is then multiplied
or divided by a power of ten that is a double as well.  Each step rounds, so the last place may
differ from that of the nearest double.  A digit that is not gathered counts as a place when it
stands before the point, and for nothing when it stands behind it.

* `gather`      the whole number of the leading digits;
* `value?`      the double, none when it lies beyond all doubles;
* `readStrict`  the grammar: no needless zero at the start, digits on both sides of a point.
-/

namespace EffectFusion.Number

/-- `(-1)^negative · significand · 10^exponent`; `whole` when it was written without fraction and
exponent and all of its digits were gathered -/
structure Scaled where
  negative : Bool
  significand : Nat
  exponent : Int
  whole : Bool
  deriving DecidableEq, Repr

/-! ### Gathering digits -/

def digitValue (c : Char) : Nat := c.toNat - 48

/-- `n` with digits put behind it as long as it stays below `2^64`, and how many digits are left -/
def gather (n : Nat) : List Char → Nat × Nat
  | [] => (n, 0)
  | c :: rest =>
    if 10 * n + digitValue c < twoTo 64 then gather (10 * n + digitValue c) rest
    else (n, rest.length + 1)

/-! ### Values -/

def powerOfTen (k : Nat) : Float := Float.ofScientific 1 false k

/-- exponent of the largest power of ten that is a finite double -/
def lastPower : Nat := 308

/-- `x` times `10^k`, none when that lies beyond all doubles -/
def scaledUp? (x : Float) (k : Nat) : Option Float :=
  if k ≤ lastPower then
    let y := x * powerOfTen k
    if y.isFinite then some y else none
  else if x == 0.0 then some x else none

/-- `x` below `2^64` divided by `10^k`: at once, in two steps when the power is no double, and zero
when two steps would not leave anything -/
def scaledDown (x : Float) (k : Nat) : Float :=
  if k ≤ lastPower then x / powerOfTen k
  else if k ≤ 2 * lastPower then x / powerOfTen lastPower / powerOfTen (k - lastPower)
  else 0.0

def Scaled.magnitude? (n : Scaled) : Option Float :=
  let x := Float.ofNat n.significand
  if 0 ≤ n.exponent then scaledUp? x n.exponent.toNat else some (scaledDown x n.exponent.natAbs)

/-- the double, none when it lies beyond all doubles -/
def Scaled.value? (n : Scaled) : Option Float :=
  n.magnitude?.map (fun x => if n.negative then -x else x)

/-! ### The grammar -/

/-- a fraction with its point, if there is one; at least one digit follows the point -/
def readFraction (s : List Char) : Option (Option (List Char) × List Char) :=
  match s with
  | '.' :: r =>
    let (ds, rest) := spanDigits r
    if ds = [] then none else some (some ds, rest)
  | r => some (none, r)

/-- digits before the point: a single zero, or digits of which the first is none -/
def readWholePart (s : List Char) : Option (List Char × List Char) :=
  match s with
  | '0' :: r => some (['0'], r)
  | r =>
    let (ds, rest) := spanDigits r
    if ds = [] then none else some (ds, rest)

/-- a numeral at the start of `s` and the rest -/
def readStrict (s : List Char) : Option (Scaled × List Char) := do
  let (negative, body) := match s with
    | '-' :: r => (true, r)
    | r => (false, r)
  let (ds, r1) ← readWholePart body
  let (fraction, r2) ← readFraction r1
  let (exponent, r3) ← readMarkedExponent r2
  let behind := fraction.getD []
  let (whole, above) := gather 0 ds
  let (significand, ignored) := gather whole behind
  pure (⟨negative, significand,
    exponent.getD 0 + above - (behind.length - ignored : Nat),
    fraction.isNone && exponent.isNone && above = 0⟩, r3)

end EffectFusion.Number
