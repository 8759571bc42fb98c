/-!
# The exact value of a double

A finite double is `(-1)^negative · mantissa · 2^exponent`, read off its bits.  Every text of a
number and the rounding to whole numbers start from this value, so none of them depends on the
operations of the machine.
-/

namespace EffectFusion.Number

def twoTo (k : Nat) : Nat := Nat.pow 2 k

theorem twoTo_pos (k : Nat) : 0 < twoTo k := Nat.two_pow_pos k

/-- sign, mantissa and exponent of a finite double -/
structure Binary where
  negative : Bool
  mantissa : Nat
  exponent : Int
  /-- the gap to the neighbour nearer to zero is half the gap to the other one -/
  narrowBelow : Bool
  deriving DecidableEq, Repr

/-- the bits of the sign and of the exponent field -/
def signBit (x : Float) : Bool := x.toBits.toNat ≥ twoTo 63

def exponentField (x : Float) : Nat := x.toBits.toNat / twoTo 52 % twoTo 11

def fractionField (x : Float) : Nat := x.toBits.toNat % twoTo 52

/-- the exact value; `none` for what is no number or not finite -/
def Binary.ofFloat? (x : Float) : Option Binary :=
  let e := exponentField x
  let f := fractionField x
  if e = 2047 then none
  else if e = 0 then some ⟨signBit x, f, -1074, false⟩
  else some ⟨signBit x, f + twoTo 52, (e : Int) - 1075, f = 0 && 1 < e⟩

/-- the magnitude as a quotient of naturals -/
def Binary.numerator (b : Binary) : Nat := b.mantissa * twoTo b.exponent.toNat

def Binary.denominator (b : Binary) : Nat := twoTo (-b.exponent).toNat

theorem Binary.denominator_pos (b : Binary) : 0 < b.denominator := twoTo_pos _

/-- nearest whole number, a half goes away from zero; the sign of a zero stays -/
def nearestWhole (x : Float) : Float :=
  match Binary.ofFloat? x with
  | none => x
  | some b =>
    if 0 ≤ b.exponent then x
    else
      let n := (2 * b.numerator + b.denominator) / (2 * b.denominator)
      let y := Float.ofNat n
      if b.negative then -y else y

/-- place of a double in the order that puts all bit patterns in one line: negative before
positive, `-0` before `0`, what is no number at the ends -/
def orderPlace (x : Float) : Int :=
  let n := x.toBits.toNat
  if n < twoTo 63 then n else (twoTo 63 : Int) - 1 - (n : Int)

end EffectFusion.Number
