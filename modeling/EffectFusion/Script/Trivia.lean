import EffectFusion.Script.Lexer

/-!
# White space and comments

Three passes over the trivia of a script.  `stripComments` leaves white space where a comment
kept two tokens or two lines apart; `collapseWhitespace` leaves one character of each run of white
space; `normalizePunctuation` drops white space where neither the tokens nor the statements
around it need it.
-/

namespace EffectFusion.Script

open Text

/-! ### Comments -/

/-- `afterBlank` says that nothing or white space comes right before.  A block comment with a line
break in it stands for a line break, any other one for a space where it is all that keeps its
neighbours apart. -/
def withoutComments (afterBlank : Bool) : List Token → List Token
  | [] => []
  | t :: rest =>
    if t.isComment then
      let beforeBlank := (rest.head?.map Token.isWhitespace).getD true
      if t.kind = .blockComment ∧ t.breaksLine then .lineBreak :: withoutComments true rest
      else if afterBlank ∨ beforeBlank then withoutComments afterBlank rest
      else .space :: withoutComments true rest
    else t :: withoutComments t.isWhitespace rest

def stripComments (code : List Char) : List Char := render (withoutComments true (lex code))

/-! ### Runs of white space -/

/-- one line break if the run had one, otherwise one space -/
def collapsed (t : Token) : Token :=
  if t.isWhitespace then if t.breaksLine then .lineBreak else .space else t

/-- the script with single characters between its tokens and none around it -/
def collapseWhitespace (code : List Char) : List Char :=
  render ((lex (trim code)).map collapsed)

/-! ### White space that may go -/

/-- words after which a line break ends the statement -/
def restrictedWords : List String := ["return", "break", "continue", "throw", "yield", "async"]

def isOperandKind (t : Token) : Bool :=
  t.kind = .word || t.kind = .number || t.kind = .stringLiteral || t.kind = .templateLiteral

/-- an expression may end here -/
def endsOperand (t : Token) : Bool := isOperandKind t || t.isMarkOf [")", "]", "\x7d"]

/-- an expression may start here without continuing the one before -/
def startsOperand (t : Token) : Bool := isOperandKind t || t.isMarkOf ["++", "--"]

/-- a line break between the two may be the end of a statement -/
def endsStatement (before after : Token) : Bool :=
  before.isNameOf restrictedWords || (endsOperand before && startsOperand after)

/-- what stays of white space between two tokens -/
def separator? (before : Token) (gap : Token) (after : Token) : Option Token :=
  if (gap.breaksLine && endsStatement before after) || !gluesCleanly before after then
    some (collapsed gap)
  else none

theorem eq_collapsed_of_separator {p t n gap : Token} (h : separator? p t n = some gap) :
    gap = collapsed t := by
  unfold separator? at h
  split at h
  · exact (Option.some.inj h).symm
  · cases h

theorem glues_of_separator {p t n : Token} (h : separator? p t n = none) :
    gluesCleanly p n = true := by
  unfold separator? at h
  split at h
  · cases h
  · rename_i hneed
    simp only [Bool.or_eq_true, Bool.not_eq_true', not_or, Bool.not_eq_false] at hneed
    exact hneed.2

/-- `before` is the token right before the list; white space at either end goes -/
def tightened (before : Option Token) : List Token → List Token
  | [] => []
  | t :: rest =>
    if t.isWhitespace then
      match before, rest.head? with
      | some p, some n =>
        match separator? p t n with
        | some gap => gap :: tightened (some gap) rest
        | none => tightened before rest
      | _, _ => tightened before rest
    else t :: tightened (some t) rest

theorem tightened_token {t : Token} (h : t.isWhitespace = false) (before : Option Token)
    (rest : List Token) : tightened before (t :: rest) = t :: tightened (some t) rest := by
  simp [tightened, h]

theorem tightened_start {w : Token} (h : w.isWhitespace = true) (rest : List Token) :
    tightened none (w :: rest) = tightened none rest := by
  simp [tightened, h]

theorem tightened_end {w : Token} (h : w.isWhitespace = true) (before : Option Token) :
    tightened before [w] = [] := by
  cases before <;> simp [tightened, h]

theorem tightened_gap {w : Token} (h : w.isWhitespace = true) (p n : Token) (rest : List Token) :
    tightened (some p) (w :: n :: rest) =
      match separator? p w n with
      | some gap => gap :: tightened (some gap) (n :: rest)
      | none => tightened (some p) (n :: rest) := by
  rw [tightened.eq_def]
  simp [h]

/-- the script without the white space that it does not need -/
def normalizePunctuation (code : List Char) : List Char := render (tightened none (lex code))

end EffectFusion.Script
