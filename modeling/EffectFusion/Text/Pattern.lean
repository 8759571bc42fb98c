import EffectFusion.Text.Class

/-!
# Patterns in text

A pattern is looked for anywhere in a text; what matters is whether it occurs, not where.  A word
edge lies between a word character and anything else, the ends of the text included.

* `matchesAt p before text k`  some way to match `p` at the start of `text` leaves a rest that `k`
  accepts;
* `occurs p text`              `p` matches somewhere in `text`.
-/

namespace EffectFusion.Text

inductive Pattern
  /-- matches nowhere -/
  | never
  /-- one character for each class -/
  | each (classes : List (Char → Bool))
  /-- characters of one class, at least `least` and at most `most` of them -/
  | run (member : Char → Bool) (least : Nat) (most : Option Nat)
  /-- a word edge -/
  | edge
  | both (first second : Pattern)
  | either (left right : Pattern)

namespace Pattern

/-! ### Matching -/

/-- a word character, if there is a character at all -/
def isWordSide (c : Option Char) : Bool := (c.map isWordChar).getD false

/-- the rest of the text after one character for each class, with the last of these characters -/
def stripEach? : List (Char → Bool) → Option Char → List Char → Option (Option Char × List Char)
  | [], before, text => some (before, text)
  | _ :: _, _, [] => none
  | p :: ps, _, c :: text => if p c then stripEach? ps (some c) text else none

/-- some run at the start of the text leaves a rest that `k` accepts -/
def runAt (member : Char → Bool) (least : Nat) (most : Option Nat) (before : Option Char)
    (text : List Char) (k : Option Char → List Char → Bool) : Bool :=
  match text with
  | [] => least = 0 && k before []
  | c :: rest =>
    (least = 0 && k before (c :: rest))
      || (most ≠ some 0 && member c
        && runAt member (least - 1) (most.map (· - 1)) (some c) rest k)

/-- some way to match at the start of the text, where `before` is the character before it, leaves
a rest that `k` accepts -/
def matchesAt (p : Pattern) (before : Option Char) (text : List Char)
    (k : Option Char → List Char → Bool) : Bool :=
  match p with
  | .never => false
  | .each classes =>
    match stripEach? classes before text with
    | some (before', rest) => k before' rest
    | none => false
  | .run member least most => runAt member least most before text k
  | .edge => isWordSide before != isWordSide text.head? && k before text
  | .both first second => matchesAt first before text (fun b t => matchesAt second b t k)
  | .either left right => matchesAt left before text k || matchesAt right before text k

/-- the pattern matches at the start of the text or later -/
def occursFrom (p : Pattern) (before : Option Char) (text : List Char) : Bool :=
  matchesAt p before text (fun _ _ => true)
    || match text with
      | [] => false
      | c :: rest => occursFrom p (some c) rest

/-- the pattern matches somewhere in the text -/
def occurs (p : Pattern) (text : List Char) : Bool := occursFrom p none text

/-! ### Building patterns -/

/-- `c` without its case; two letters outside of ASCII differ from an ASCII letter in case only -/
def caseless (c : Char) : Char :=
  if c = '\u017f' then 's' else if c = '\u212a' then 'k' else c.toLower

/-- the text as it stands -/
def exact (text : String) : Pattern := .each (text.toList.map (fun c d => d = c))

/-- the text in upper or lower case -/
def anyCase (text : String) : Pattern :=
  .each (text.toList.map (fun c d => caseless d = caseless c))

def oneOf (chars : String) : Pattern := .each [fun d => chars.toList.contains d]

def oneOfAnyCase (chars : String) : Pattern :=
  .each [fun d => (chars.toList.map caseless).contains (caseless d)]

def blanks : Pattern := .run isBlank 0 none

/-- anything but one character, any number of times -/
def upTo (stop : Char) : Pattern := .run (· ≠ stop) 0 none

def chain : List Pattern → Pattern
  | [] => .each []
  | [p] => p
  | p :: rest => .both p (chain rest)

def any : List Pattern → Pattern
  | [] => .never
  | [p] => p
  | p :: rest => .either p (any rest)

/-- a whole word in upper or lower case -/
def wholeWord (text : String) : Pattern := chain [.edge, anyCase text, .edge]

def anyCaseOf (texts : List String) : Pattern := any (texts.map anyCase)

def exactOf (texts : List String) : Pattern := any (texts.map exact)

theorem matchesAt_either (l r : Pattern) (before : Option Char) (text : List Char)
    (k : Option Char → List Char → Bool) :
    matchesAt (.either l r) before text k
      = (matchesAt l before text k || matchesAt r before text k) := rfl

theorem matchesAt_both (p q : Pattern) (before : Option Char) (text : List Char)
    (k : Option Char → List Char → Bool) :
    matchesAt (.both p q) before text k
      = matchesAt p before text (fun b t => matchesAt q b t k) := rfl

end Pattern

end EffectFusion.Text
