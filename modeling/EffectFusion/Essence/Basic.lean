import EffectFusion.Keyed
import EffectFusion.Tag

/-!
# The essence of an effect

What is known of a visual effect from its source text: how it moves, which features it has, how
it feels and what it costs.  Scores are in any number type `F`.
-/

namespace EffectFusion

inductive AnimationType
  | particleSystem
  | transformation3d
  | textAnimation
  | transitionEffect
  | customAnimation
  deriving DecidableEq, Repr

instance : Tag AnimationType where
  all := [.particleSystem, .transformation3d, .textAnimation, .transitionEffect, .customAnimation]
  name
    | .particleSystem => "particle_system"
    | .transformation3d => "3d_transformation"
    | .textAnimation => "text_animation"
    | .transitionEffect => "transition_effect"
    | .customAnimation => "custom_animation"
  decEq := inferInstance

inductive Movement
  | linear
  | circular
  | oscillating
  | random
  | easing
  | physicsBased
  deriving DecidableEq, Repr

instance : Tag Movement where
  all := [.linear, .circular, .oscillating, .random, .easing, .physicsBased]
  name
    | .linear => "linear"
    | .circular => "circular"
    | .oscillating => "oscillating"
    | .random => "random"
    | .easing => "easing"
    | .physicsBased => "physics_based"
  decEq := inferInstance

inductive Aesthetic
  | luminous
  | organic
  | chromatic
  | geometric
  | minimalist
  deriving DecidableEq, Repr

instance : Tag Aesthetic where
  all := [.luminous, .organic, .chromatic, .geometric, .minimalist]
  name
    | .luminous => "luminous"
    | .organic => "organic"
    | .chromatic => "chromatic"
    | .geometric => "geometric"
    | .minimalist => "minimalist"
  decEq := inferInstance

inductive Emotion
  | exhilarating
  | engaging
  | calming
  deriving DecidableEq, Repr

instance : Tag Emotion where
  all := [.exhilarating, .engaging, .calming]
  name
    | .exhilarating => "exhilarating"
    | .engaging => "engaging"
    | .calming => "calming"
  decEq := inferInstance

/-- how much of a resource an effect takes -/
inductive Tier
  | low
  | medium
  | high
  deriving DecidableEq, Repr

instance : Tag Tier where
  all := [.low, .medium, .high]
  name
    | .low => "low"
    | .medium => "medium"
    | .high => "high"
  decEq := inferInstance

/-- what an effect draws with -/
inductive Platform
  | canvas2d
  | webgl
  | css
  | svg
  | dom
  | webAnimations
  deriving DecidableEq, Repr

instance : Tag Platform where
  all := [.canvas2d, .webgl, .css, .svg, .dom, .webAnimations]
  name
    | .canvas2d => "canvas2d"
    | .webgl => "webgl"
    | .css => "css"
    | .svg => "svg"
    | .dom => "dom"
    | .webAnimations => "web_animations"
  decEq := inferInstance

/-- kind of animation, movements and features, each feature with whether it was found -/
structure CoreBehavior where
  animation : AnimationType
  movements : TagSet Movement
  visual : Keyed Bool
  mathematics : Keyed Bool
  deriving DecidableEq

/-- scores of the unit interval and the impression of an effect -/
structure CreativeDna (F : Type) where
  energy : F
  complexity : F
  innovation : F
  aesthetic : Aesthetic
  emotion : Emotion
  deriving DecidableEq

/-- frames a second and tiers of memory and processor -/
structure Performance (F : Type) where
  fps : F
  memory : Tier
  cpu : Tier
  deriving DecidableEq

structure TechnicalAspects (F : Type) where
  performance : Performance F
  platforms : TagSet Platform
  optimization : F
  deriving DecidableEq

/-- how well an effect takes changes, in scores of the unit interval -/
structure Receptivity (F : Type) where
  flexibility : F
  receptivity : F
  deriving DecidableEq

structure Essence (F : Type) where
  core : CoreBehavior
  dna : CreativeDna F
  technical : TechnicalAspects F
  fusion : Receptivity F
  deriving DecidableEq

/-- the names of the features that were found -/
def found (flags : Keyed Bool) : List String :=
  (flags.entries.filter (fun e => e.2)).map (·.1)

namespace Essence

variable {F : Type}

/-- the scores that lie in the unit interval, by name -/
def unitScores (e : Essence F) : List (String × F) := [
  ("energy_level", e.dna.energy),
  ("complexity_factor", e.dna.complexity),
  ("innovation_index", e.dna.innovation),
  ("optimization_potential", e.technical.optimization),
  ("adaptation_flexibility", e.fusion.flexibility),
  ("enhancement_receptivity", e.fusion.receptivity)]

def visualFeatures (e : Essence F) : List String := found e.core.visual

def mathFeatures (e : Essence F) : List String := found e.core.mathematics

end Essence

end EffectFusion
