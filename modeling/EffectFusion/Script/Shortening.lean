import EffectFusion.Script.Lexer

/-!
# Shorter words

Members that only the generated class uses have short names, and a truth value is written as the
negation of a digit, unless it is a key or a member.
-/

namespace EffectFusion.Script

/-- long names and the short names that stand for them -/
def abbreviations : List (String × String) := [
  ("originalEssence", "oE"),
  ("enhancedProperties", "eP"),
  ("moduleIntegrations", "mI"),
  ("evolution", "eV"),
  ("fusionIntensity", "fI"),
  ("isRunning", "iR"),
  ("frameHandle", "fH"),
  ("applyEnhancements", "aE"),
  ("spawnParticle", "sP"),
  ("deltaTime", "dt"),
  ("timestamp", "ts")]

/-- the short name of a word -/
def abbreviation? (t : Token) : Option Token :=
  (abbreviations.find? (fun a => t.isName a.1)).map (fun a => .name a.2)

/-- the digit whose negation is the truth value that a word names -/
def truthDigit? (t : Token) : Option Char :=
  if t.isName "true" then some '0' else if t.isName "false" then some '1' else none

/-- the first token that is no trivia -/
def significant? (ts : List Token) : Option Token := ts.find? (fun t => !t.isTrivia)

/-- a token that has a property if there is one -/
def holds (p : Token → Bool) (t : Option Token) : Bool := (t.map p).getD false

/-- the place after a point, or between an opening brace or comma and a colon -/
def namesProperty (before after : Option Token) : Bool :=
  holds (·.isMark ".") before
    || (holds (·.isMark ":") after && holds (·.isMarkOf ["\x7b", ","]) before)

/-- what is written for a token; `before` and `after` are the nearest tokens that are no trivia -/
def shortened (before : Option Token) (t : Token) (after : Option Token) : List Token :=
  if t.kind ≠ .word then [t]
  else match abbreviation? t with
    | some short => [short]
    | none =>
      match truthDigit? t with
      | some digit => if namesProperty before after then [t] else [.mark "!", ⟨.number, [digit]⟩]
      | none => [t]

/-- `before` is the nearest token before the list that is no trivia -/
def shortenedAll (before : Option Token) : List Token → List Token
  | [] => []
  | t :: rest =>
    shortened before t (significant? rest)
      ++ shortenedAll (if t.isTrivia then before else some t) rest

def abbreviateTokens (code : List Char) : List Char := render (shortenedAll none (lex code))

end EffectFusion.Script
