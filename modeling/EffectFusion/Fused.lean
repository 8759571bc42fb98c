import EffectFusion.Blueprint

/-!
# The fused essence

What the modules of a blueprint add up to.  It holds no code: which properties are enhanced, how
each module is integrated, and how far the effect has evolved.
-/

namespace EffectFusion

structure EnhancedProperty (F : Type) where
  algorithm : Algorithm
  intensity : F
  aesthetic : F
  innovation : F
  deriving DecidableEq

/-- `rank` is the position in the blueprint, zero for the heaviest module -/
structure Integration (F : Type) where
  rank : Nat
  specialization : Specialization
  algorithm : Algorithm
  weight : F
  behavioral : Keyed F
  technical : Keyed F
  deriving DecidableEq

structure Evolution (F : Type) where
  aesthetic : F
  behavioral : F
  innovation : F
  harmony : F
  coherence : F
  deriving DecidableEq

structure FusedEssence (F : Type) where
  essence : Essence F
  strategy : Strategy
  level : UInt8
  intensity : F
  enhanced : Keyed (EnhancedProperty F)
  integrations : Keyed (Integration F)
  evolution : Evolution F
  deriving DecidableEq

def Evolution.named {F : Type} (e : Evolution F) : List (String × F) := [
  ("aesthetic_evolution", e.aesthetic),
  ("behavioral_sophistication", e.behavioral),
  ("innovation_breakthrough", e.innovation),
  ("fusion_harmony", e.harmony),
  ("fusion_coherence", e.coherence)]

section

variable {F : Type} [Scalar F]

open Scalar

/-- how much of an expected innovation a strategy lets through -/
def innovationCap : Strategy → F
  | .revolutionary => 0.9
  | _ => 0.7

/-- the amount of a name, zero when there is none -/
def amountOf (m : Keyed F) (name : String) : F := (m.get? name).getD 0.0

/-! ### Modules -/

def enhancedProperty (intensity : F) (p : Profile F) : EnhancedProperty F where
  algorithm := p.algorithm
  intensity := score (p.weight * intensity)
  aesthetic := amountOf p.creative "aesthetic"
  innovation := amountOf p.creative "innovation"

omit [Scalar F] in
def integration (rank : Nat) (p : Profile F) : Integration F where
  rank := rank
  specialization := p.specialization
  algorithm := p.algorithm
  weight := p.weight
  behavioral := p.behavioral
  technical := p.technical

def enhancedOf (intensity : F) (ps : List (Profile F)) : Keyed (EnhancedProperty F) :=
  Keyed.ofList ((ps.filter (fun p => p.algorithm.isExpressive)).map
    (fun p => (p.moduleId, enhancedProperty intensity p)))

omit [Scalar F] in
def integrationsOf (ps : List (Profile F)) : Keyed (Integration F) :=
  Keyed.ofList (ps.zipIdx.map (fun p => (p.1.moduleId, integration p.2 p.1)))

/-! ### Metrics -/

/-- the mean of `f` by weight, zero without weight -/
def weightedMean (ps : List (Profile F)) (f : Profile F → F) : F :=
  let total := sum (ps.map (·.weight))
  if atMost total 0.0 then 0.0 else sum (ps.map (fun p => p.weight * f p)) / total

def mean (vs : List F) : F := sum vs / ofNat vs.length

/-- mean square distance from the mean -/
def variance (vs : List F) : F :=
  let centre := mean vs
  mean (vs.map (fun v => (v - centre) * (v - centre)))

/-- distance between the largest and the smallest -/
def spread (vs : List F) : F :=
  vs.foldl larger (-infinity) - vs.foldl smaller infinity

/-- even weights harmonise -/
def harmonyOf (ps : List (Profile F)) : F :=
  if ps.isEmpty then 0.5 else 1.0 - sqrt (variance (ps.map (·.weight))) * 2.0

/-- compatible modules of like weight cohere -/
def coherenceOf (ps : List (Profile F)) : F :=
  if ps.isEmpty then 0.5
  else 0.4 + mean (ps.map (·.compatibility)) * 0.6 - spread (ps.map (·.weight)) * 0.5

def evolutionOf (b : Blueprint F) : Evolution F :=
  let intensity := clampUnit b.intensity
  let aesthetic := weightedMean b.modules (fun p => amountOf p.creative "aesthetic")
  let movement := weightedMean b.modules (fun p => amountOf p.behavioral "movement")
  let rhythm := weightedMean b.modules (fun p => amountOf p.behavioral "rhythm")
  { aesthetic := score (0.3 + aesthetic * 0.6 * (0.5 + intensity / 2.0))
    behavioral := score (0.2 + movement * 0.5 + rhythm * 0.3)
    innovation := score (smaller (b.expected.creative / 100.0) (innovationCap b.strategy))
    harmony := score (harmonyOf b.modules)
    coherence := score (coherenceOf b.modules) }

def synthesize (b : Blueprint F) : FusedEssence F where
  essence := b.essence
  strategy := b.strategy
  level := b.level
  intensity := b.intensity
  enhanced := enhancedOf b.intensity b.modules
  integrations := integrationsOf b.modules
  evolution := evolutionOf b

end

end EffectFusion
