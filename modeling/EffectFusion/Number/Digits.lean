import EffectFusion.Number.Binary

/-!
# The fewest digits that read back

`shortest` gives the decimal with the fewest digits among the reals that round to a double; of
two such decimals the nearer one.  `rounded` gives the multiple of a power of ten nearest to the
exact value, a half going to the even neighbour.
-/

namespace EffectFusion.Number

/-- which of two equally near decimals is taken -/
inductive Tie
  | toEven
  | upward
  deriving DecidableEq, Repr

/-- the decimal `significand · 10^exponent` -/
structure Decimal where
  significand : Nat
  exponent : Int
  deriving DecidableEq, Repr

def tenTo (k : Nat) : Nat := Nat.pow 10 k

def digitsOf (n : Nat) : List Char := Nat.toDigits 10 n

/-- comparison of `n / d` with `m · 10^e` over naturals: `n` times the first against the second -/
def scaleFor (m d : Nat) (e : Int) : Nat × Nat :=
  (tenTo (-e).toNat, m * tenTo e.toNat * d)

/-- `m · 10^e` is above the quotient `n / d` -/
def decimalAbove (n d m : Nat) (e : Int) : Bool :=
  let s := scaleFor m d e
  n * s.1 < s.2

/-- `m · 10^e` is the quotient `n / d` -/
def decimalIs (n d m : Nat) (e : Int) : Bool :=
  let s := scaleFor m d e
  n * s.1 == s.2

/-- the ends of the interval of reals that round to `b`, as numerators over `4 · denominator` -/
def Binary.lowEnd (b : Binary) : Nat :=
  if b.narrowBelow then (4 * b.mantissa - 1) * twoTo b.exponent.toNat
  else (4 * b.mantissa - 2) * twoTo b.exponent.toNat

def Binary.highEnd (b : Binary) : Nat := (4 * b.mantissa + 2) * twoTo b.exponent.toNat

/-- the decimal `m · 10^e` rounds to `b`; an end of the interval counts when the mantissa is
even -/
def readsBack (b : Binary) (m : Nat) (e : Int) : Bool :=
  let d := 4 * b.denominator
  let closed := b.mantissa % 2 == 0
  (decimalAbove b.lowEnd d m e || (closed && decimalIs b.lowEnd d m e))
    && (!(decimalAbove b.highEnd d m e || decimalIs b.highEnd d m e)
      || (closed && decimalIs b.highEnd d m e))

/-- whole part of `n / (d · 10^e)` -/
def wholeQuotient (n d : Nat) (e : Int) : Nat :=
  n * tenTo (-e).toNat / (d * tenTo e.toNat)

/-- number of decimal digits before the point of `n / d`; zero or less when it is below one -/
def leadingPlace (n d : Nat) : Int :=
  let guess : Int := (digitsOf n).length - (digitsOf d).length
  if 0 < wholeQuotient n d guess then guess + 1 else guess

/-- the neighbour of the value on the grid `10^e` that reads back, the nearer of two -/
def onGrid? (tie : Tie) (b : Binary) (e : Int) : Option Nat :=
  let n := b.numerator
  let d := b.denominator
  let low := wholeQuotient n d e
  let lowFits := readsBack b low e && 0 < low
  let highFits := readsBack b (low + 1) e
  if lowFits && highFits then
    -- twice the value against the sum of the two neighbours
    let s := scaleFor (2 * low + 1) d e
    let twice := 2 * n * s.1
    if twice < s.2 then some low
    else if s.2 < twice then some (low + 1)
    else match tie with
      | .upward => some (low + 1)
      | .toEven => if low % 2 = 0 then some low else some (low + 1)
  else if lowFits then some low
  else if highFits then some (low + 1)
  else none

def stripZeros : Nat → Nat → Int → Decimal
  | 0, m, e => ⟨m, e⟩
  | fuel + 1, m, e => if m % 10 = 0 ∧ m ≠ 0 then stripZeros fuel (m / 10) (e + 1) else ⟨m, e⟩

/-- first grid with a hit, from the coarsest on -/
def searchGrids (tie : Tie) (b : Binary) (place : Int) : List Nat → Decimal
  | [] => ⟨b.mantissa, b.exponent⟩
  | count :: rest =>
    let e := place - count
    match onGrid? tie b e with
    | some m => stripZeros (digitsOf m).length m e
    | none => searchGrids tie b place rest

/-- the shortest decimal that reads back, of the magnitude -/
def shortest (tie : Tie) (b : Binary) : Decimal :=
  if b.mantissa = 0 then ⟨0, 0⟩
  else searchGrids tie b (leadingPlace b.numerator b.denominator) (List.range' 1 17)

/-- `n / d` rounded to a whole number, a half to the even neighbour -/
def roundHalfEven (n d : Nat) : Nat :=
  let q := n / d
  let r := n % d
  if 2 * r < d then q
  else if d < 2 * r then q + 1
  else if q % 2 = 0 then q else q + 1

/-- the magnitude in units of `10^-places` -/
def rounded (places : Nat) (b : Binary) : Nat :=
  roundHalfEven (b.numerator * tenTo places) b.denominator

end EffectFusion.Number
