import EffectFusion.Number.Digits

/-!
# Numbers as text

Three notations: `plain` never has an exponent and drops a fraction of zero; `precise` is the one
of data files and keeps numbers with a fraction apart from whole numbers; `fixed` has a given
number of places.
-/

namespace EffectFusion.Number

def zeros (count : Nat) : List Char := List.replicate count '0'

/-- digits with a point after the first `place` of them; `place` may lie outside of the digits.
`wholeTail` follows when there is no fraction. -/
def positional (digits : List Char) (place : Int) (wholeTail : List Char) : List Char :=
  if place ≤ 0 then ['0', '.'] ++ zeros (-place).toNat ++ digits
  else
    let p := place.toNat
    if digits.length ≤ p then digits ++ zeros (p - digits.length) ++ wholeTail
    else digits.take p ++ ['.'] ++ digits.drop p

/-- one digit before the point and a signed exponent -/
def scientific (digits : List Char) (place : Int) : List Char :=
  let e := place - 1
  let mantissa := match digits with
    | [] => ['0']
    | [d] => [d]
    | d :: rest => d :: '.' :: rest
  let sign := if e < 0 then '-' else '+'
  mantissa ++ ['e', sign] ++ digitsOf e.natAbs

def signed (negative : Bool) (text : List Char) : List Char :=
  if negative then '-' :: text else text

def unbounded (x : Float) : String :=
  if x.isNaN then "NaN" else if signBit x then "-inf" else "inf"

/-- shortest digits, no exponent, no fraction of zero -/
def plain (x : Float) : String :=
  match Binary.ofFloat? x with
  | none => unbounded x
  | some b =>
    let d := shortest .upward b
    let digits := digitsOf d.significand
    let place := if d.significand = 0 then 1 else d.exponent + digits.length
    String.ofList (signed b.negative (positional digits place []))

/-- shortest digits; from a hundred-thousandth to below `10^16` without an exponent; always with
a fraction or an exponent -/
def precise (b : Binary) : String :=
  let d := shortest .toEven b
  let digits := digitsOf d.significand
  let place := if d.significand = 0 then 1 else d.exponent + digits.length
  let text :=
    if -5 < place ∧ place ≤ 16 then positional digits place ['.', '0']
    else scientific digits place
  String.ofList (signed b.negative text)

/-- at least `width` digits -/
def padZeros (width : Nat) (digits : List Char) : List Char :=
  zeros (width - digits.length) ++ digits

/-- the exact value rounded to `places` places; the sign stays when nothing but zeros is left -/
def fixed (places : Nat) (x : Float) : String :=
  match Binary.ofFloat? x with
  | none => unbounded x
  | some b =>
    let digits := padZeros (places + 1) (digitsOf (rounded places b))
    let whole := digits.take (digits.length - places)
    let text := if places = 0 then whole else whole ++ ['.'] ++ digits.drop (digits.length - places)
    String.ofList (signed b.negative text)

end EffectFusion.Number
