import EffectFusion.Policy
import EffectFusion.Profile

/-!
# Blueprints

A blueprint is all that a fusion is made from: the essence, the profiles with the heaviest first,
the settings of the level and what is expected of the outcome.
-/

namespace EffectFusion

/-- adjustments by the caller -/
structure Options (F : Type) where
  creativityBoost : F
  performancePriority : F
  innovationLevel : F
  deriving DecidableEq

/-- what is expected of a fusion, in units like per cent; not bounded -/
structure Projection (F : Type) where
  visual : F
  performance : F
  creative : F
  behavioral : F
  deriving DecidableEq

structure Blueprint (F : Type) where
  essence : Essence F
  modules : List (Profile F)
  strategy : Strategy
  level : UInt8
  intensity : F
  expected : Projection F
  deriving DecidableEq

namespace Options

variable {F : Type} [Scalar F]

def zero : Options F := ⟨0.0, 0.0, 0.0⟩

def named (o : Options F) : List (String × F) := [
  ("creativity_boost", o.creativityBoost),
  ("performance_priority", o.performancePriority),
  ("innovation_level", o.innovationLevel)]

/-- the first adjustment that is not finite -/
def defect? (o : Options F) : Option Defect :=
  (o.named.find? (fun n => !Scalar.isFinite n.2)).map
    (fun n => .optionNotFinite n.1 (Scalar.text n.2))

def check (o : Options F) : Except FusionError Unit :=
  match o.defect? with
  | some d => .error (.validation d)
  | none => .ok ()

end Options

def Projection.named {F : Type} (p : Projection F) : List (String × F) := [
  ("visual_enhancement", p.visual),
  ("performance_gain", p.performance),
  ("creative_evolution", p.creative),
  ("behavioral_complexity", p.behavioral)]

section

variable {F : Type} [Scalar F]

/-- expectations are linear in the settings and the adjustments -/
def project (policy : LevelPolicy F) (options : Options F) : Projection F where
  visual := policy.creativity * 100.0 + options.creativityBoost
  performance := policy.technical * 100.0 + options.performancePriority
  creative := policy.intensity * 100.0 + options.innovationLevel
  behavioral := (policy.intensity + policy.creativity) * 50.0
    + (options.creativityBoost + options.innovationLevel) / 2.0

namespace Blueprint

def build (essence : Essence F) (profiles : List (Profile F)) (policy : LevelPolicy F)
    (options : Options F) : Blueprint F where
  essence := essence
  modules := profiles
  strategy := policy.strategy
  level := policy.level
  intensity := policy.intensity
  expected := project policy options

omit [Scalar F] in
def moduleIds (b : Blueprint F) : List String := b.modules.map (·.moduleId)

end Blueprint

end

end EffectFusion
