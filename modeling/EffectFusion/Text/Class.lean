import EffectFusion.Text.Alphabetic
import EffectFusion.Text.Digit
import EffectFusion.Text.Mark
import EffectFusion.Text.Recent
import EffectFusion.Text.Unseen

/-!
# Classes of characters

The classes that the script tokens, the source patterns and the quoted lists in messages use.
Each is a union of tables of code points.

* `isBlank`     the property White_Space;
* `isLetter`    the property Alphabetic;
* `isNumeric`   the general category N (digits, letter-like and other numbers);
* `isDecimal`   the general category Nd;
* `isWordChar`  letters, marks, decimal digits, connectors and joiners of running text;
* `isWordDigit` decimal digits of running text.

Running text knows version 16 of the Unicode standard and all else version 17.
-/

namespace EffectFusion.Text

/-- membership in sorted, disjoint ranges with both ends included -/
def inRanges : List (Nat × Nat) → Nat → Bool
  | [], _ => false
  | (lo, hi) :: rest, n =>
    if n < lo then false else if n ≤ hi then true else inRanges rest n

/-- code points with the property White_Space -/
def blankRanges : List (Nat × Nat) := [
  (0x9, 0xD), (0x20, 0x20), (0x85, 0x85), (0xA0, 0xA0), (0x1680, 0x1680), (0x2000, 0x200A),
  (0x2028, 0x2029), (0x202F, 0x202F), (0x205F, 0x205F), (0x3000, 0x3000)]

def isBlank (c : Char) : Bool := inRanges blankRanges c.toNat

def isLetter (c : Char) : Bool := inRanges alphabeticRanges c.toNat

/-- decimal digits of any script -/
def isDecimal (c : Char) : Bool := inRanges decimalRanges c.toNat

/-- numbers of any kind -/
def isNumeric (c : Char) : Bool :=
  isDecimal c || inRanges letterNumberRanges c.toNat || inRanges otherNumberRanges c.toNat

/-- not in version 16 of the standard -/
def isRecent (c : Char) : Bool := inRanges recentRanges c.toNat

/-- what a word of running text is made of -/
def isWordChar (c : Char) : Bool :=
  !isRecent c && (isLetter c || isDecimal c || inRanges markRanges c.toNat
    || inRanges connectorRanges c.toNat || inRanges joinerRanges c.toNat)

/-- decimal digits of running text -/
def isWordDigit (c : Char) : Bool := !isRecent c && isDecimal c

/-- shows nothing on its own -/
def isUnseen (c : Char) : Bool := inRanges unseenRanges c.toNat

/-- merges with the character before it -/
def isExtender (c : Char) : Bool := inRanges extenderRanges c.toNat

/-- the ten digits of ASCII -/
def isDigit (c : Char) : Bool := '0' ≤ c && c ≤ '9'

/-- the letters and digits of ASCII -/
def isAlnum (c : Char) : Bool :=
  isDigit c || ('a' ≤ c && c ≤ 'z') || ('A' ≤ c && c ≤ 'Z')

example : isBlank '\n' = true ∧ isWordChar '\n' = false := by decide
example : isLetter 'k' = true ∧ isNumeric 'k' = false := by decide

/-! ### Trimming -/

def trimStart (s : List Char) : List Char := s.dropWhile isBlank

def trimEnd (s : List Char) : List Char := (trimStart s.reverse).reverse

def trim (s : List Char) : List Char := trimEnd (trimStart s)

end EffectFusion.Text
