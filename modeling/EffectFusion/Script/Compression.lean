import EffectFusion.Error
import EffectFusion.Script.Trivia
import EffectFusion.Script.Reformulation

/-!
# Compression

The passes in their order.  No pass may make a script longer; how long it was before and after
each pass is kept.
-/

namespace EffectFusion.Script

/-- a change of script text with its name -/
structure Pass where
  name : String
  run : List Char → List Char

/-- the passes in the order in which they run -/
def passes : List Pass := [
  ⟨"strip_comments", stripComments⟩,
  ⟨"collapse_whitespace", collapseWhitespace⟩,
  ⟨"normalize_punctuation", normalizePunctuation⟩,
  ⟨"abbreviate_tokens", abbreviateTokens⟩,
  ⟨"reformulate", reformulate⟩]

/-- lengths in bytes before and after a pass -/
structure PassStat where
  pass : String
  before : Nat
  after : Nat
  deriving DecidableEq, Repr

def byteLength : List Char → Nat
  | [] => 0
  | c :: s => c.utf8Size + byteLength s

theorem byteLength_append (s t : List Char) :
    byteLength (s ++ t) = byteLength s + byteLength t := by
  induction s with
  | nil => rw [List.nil_append, byteLength, Nat.zero_add]
  | cons c s ih => rw [List.cons_append, byteLength, byteLength, ih, Nat.add_assoc]

/-- runs passes one after the other and notes their lengths -/
def runPasses : List Pass → List Char → Except FusionError (List Char × List PassStat)
  | [], code => .ok (code, [])
  | p :: rest, code =>
    let next := p.run code
    let before := byteLength code
    let after := byteLength next
    if before < after then .error (.reconstruction (.passGrew p.name before after))
    else (runPasses rest next).map (fun r => (r.1, ⟨p.name, before, after⟩ :: r.2))

def compress (code : List Char) : Except FusionError (List Char × List PassStat) :=
  runPasses passes code

def inputBytes (stats : List PassStat) : Nat := (stats.head?.map (·.before)).getD 0

def outputBytes (stats : List PassStat) : Nat := (stats.getLast?.map (·.after)).getD 0

/-- what is left of a unit of length; all of it when there was nothing -/
def ratio (stats : List PassStat) : Float :=
  if inputBytes stats = 0 then 1.0
  else Float.ofNat (outputBytes stats) / Float.ofNat (inputBytes stats)

end EffectFusion.Script
