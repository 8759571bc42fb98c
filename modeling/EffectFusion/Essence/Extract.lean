import EffectFusion.Essence.Rules
import EffectFusion.Script.Compression

/-!
# The essence of a source text

Nothing is parsed: each score and feature follows from which patterns occur.  A text in which
nothing occurs has the baseline essence.
-/

namespace EffectFusion.Essence

open Text Text.Pattern Scalar

/-- the value of the first pattern that occurs -/
def firstMatch? {α : Type} (rules : List (Pattern × α)) (source : List Char) : Option α :=
  (rules.find? (fun r => r.1.occurs source)).map (·.2)

/-- the values of all patterns that occur, in the order of the rules -/
def allMatches {α : Type} (rules : List (Pattern × α)) (source : List Char) : List α :=
  (rules.filter (fun r => r.1.occurs source)).map (·.2)

/-- every name of the rules with whether its pattern occurs -/
def flags (rules : List (Pattern × String)) (source : List Char) : Keyed Bool :=
  Keyed.ofList (rules.map (fun r => (r.2, r.1.occurs source)))

def animationOf (source : List Char) : AnimationType :=
  (firstMatch? animationRules source).getD .customAnimation

def aestheticOf (source : List Char) : Aesthetic :=
  (firstMatch? aestheticRules source).getD .minimalist

def memoryOf (source : List Char) : Tier :=
  if memoryHigh.occurs source then .high
  else if memoryMedium.occurs source then .medium
  else .low

/-- a source longer than this many bytes is complex by its size -/
def longSource : Nat := 2000

def coreOf (source : List Char) : CoreBehavior where
  animation := animationOf source
  movements := TagSet.ofList (allMatches movementRules source)
  visual := flags visualRules source
  mathematics := flags mathematicsRules source

section

variable {F : Type} [Scalar F]

/-- a baseline and the amounts of all patterns that occur, added from left to right -/
def accumulate (baseline : F) (rules : List (Pattern × F)) (source : List Char) : F :=
  (allMatches rules source).foldl (· + ·) baseline

def emotionOf (energy : F) : Emotion :=
  if less 0.7 energy then .exhilarating
  else if atMost 0.5 energy then .engaging
  else .calming

def cpuOf (complexity : F) : Tier :=
  if atMost 0.6 complexity then .high
  else if atMost 0.3 complexity then .medium
  else .low

def energyOf (source : List Char) : F := score (accumulate 0.5 energyRules source)

def complexityOf (source : List Char) : F :=
  let found : F := accumulate 0.0 complexityRules source
  score (if longSource < Script.byteLength source then found + 0.1 else found)

def innovationOf (source : List Char) : F := score (accumulate 0.3 innovationRules source)

def optimizationOf (source : List Char) : F := score (accumulate 0.3 optimizationRules source)

def fpsOf (source : List Char) : F := clamp 30.0 120.0 (accumulate 60.0 fpsRules source)

def extract (source : List Char) : Essence F :=
  let core := coreOf source
  let energy : F := energyOf source
  let complexity : F := complexityOf source
  let innovation : F := innovationOf source
  let optimization : F := optimizationOf source
  { core := core
    dna :=
      { energy := energy
        complexity := complexity
        innovation := innovation
        aesthetic := aestheticOf source
        emotion := emotionOf energy }
    technical :=
      { performance := { fps := fpsOf source, memory := memoryOf source, cpu := cpuOf complexity }
        platforms := TagSet.ofList (allMatches platformRules source)
        optimization := optimization }
    fusion :=
      { flexibility := score (0.4 + 0.08 * ofNat core.movements.size + (1.0 - complexity) * 0.3)
        receptivity := score (0.3 + optimization * 0.4 + innovation * 0.3) } }

end

end EffectFusion.Essence
