import EffectFusion.Number.Binary
import EffectFusion.Text.Class

/-!
# Numbers of the command line

A numeral is kept exactly, as digits with a power of ten, until its value is asked for.  The value
is the double nearest to it.  The grammar is lenient: neither the digits before the point nor
those behind it need be there as long as some are.
-/

namespace EffectFusion.Number

open Text

/-- `(-1)^negative · digits · 10^exponent` -/
structure Numeral where
  negative : Bool
  digits : Nat
  exponent : Int
  deriving DecidableEq, Repr

def ofDigits (ds : List Char) : Nat := Nat.ofDigitChars 10 ds 0

/-- more than any double has before the point or needs behind it -/
def farPlace : Int := 400

/-- the nearest double of the magnitude -/
def Numeral.magnitude (n : Numeral) : Float :=
  if n.digits = 0 then 0.0
  else
    let place := n.exponent + (Nat.toDigits 10 n.digits).length
    if farPlace < place then 1.0 / 0.0
    else if place < -farPlace then 0.0
    else Float.ofScientific n.digits (n.exponent < 0) n.exponent.natAbs

/-- the nearest double -/
def Numeral.value (n : Numeral) : Float :=
  if n.negative then -n.magnitude else n.magnitude

def spanDigits (s : List Char) : List Char × List Char :=
  (s.takeWhile isDigit, s.dropWhile isDigit)

/-- an exponent without its mark: a sign or none and at least one digit -/
def readExponent (s : List Char) : Option (Int × List Char) :=
  let (sign, body) := match s with
    | '+' :: r => ((1 : Int), r)
    | '-' :: r => (-1, r)
    | r => (1, r)
  let (ds, rest) := spanDigits body
  if ds = [] then none else some (sign * ofDigits ds, rest)

/-- an exponent with its mark, if there is one -/
def readMarkedExponent (s : List Char) : Option (Option Int × List Char) :=
  match s with
  | 'e' :: r | 'E' :: r => (readExponent r).map (fun p => (some p.1, p.2))
  | r => some (none, r)

/-- digits with at most one point among them and at least one digit -/
def readLooseDigits (s : List Char) : Option (List Char × List Char × List Char) :=
  let (ds, r1) := spanDigits s
  let (behind, r2) := match r1 with
    | '.' :: r => spanDigits r
    | r => ([], r)
  if ds = [] ∧ behind = [] then none else some (ds, behind, r2)

def lowered (s : List Char) : List Char := s.map Char.toLower

/-- a sign or none, then digits with an optional point and exponent, or a name of infinity or of
what is no number; nothing may follow -/
def readLoose? (text : String) : Option Float :=
  let (negative, body) := match text.toList with
    | '-' :: r => (true, r)
    | '+' :: r => (false, r)
    | r => (false, r)
  let signed := fun (x : Float) => if negative then -x else x
  if lowered body = ['i', 'n', 'f'] ∨ lowered body = "infinity".toList then
    some (signed (1.0 / 0.0))
  else if lowered body = ['n', 'a', 'n'] then some (0.0 / 0.0)
  else do
    let (ds, behind, rest) ← readLooseDigits body
    let (exponent, rest) ← readMarkedExponent rest
    if rest = [] then
      some (Numeral.value ⟨negative, ofDigits (ds ++ behind),
        exponent.getD 0 - behind.length⟩)
    else none

/-- a whole number with a sign or none; nothing may follow -/
def readWhole? (text : String) : Option Int :=
  let (sign, body) := match text.toList with
    | '-' :: r => ((-1 : Int), r)
    | '+' :: r => (1, r)
    | r => (1, r)
  if body ≠ [] ∧ body.all isDigit then some (sign * ofDigits body) else none

end EffectFusion.Number
