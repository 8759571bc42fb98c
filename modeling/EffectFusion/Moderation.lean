import EffectFusion.Blueprint

/-!
# Moderation

A moderator may change the numbers of a blueprint before it is used and nothing else.  What it may
not change is the shape of the blueprint; `Shape.verify` compares shapes and names the first
difference.
-/

namespace EffectFusion

abbrev Moderator (F : Type) := Blueprint F → Except FusionError (Blueprint F)

namespace Moderator

variable {F : Type} [Scalar F]

def passthrough : Moderator F := fun b => .ok b

open Scalar

def clampMap (m : Keyed F) : Keyed F := m.map clampUnit

/-- brings the numbers of a profile into the unit interval -/
def clampProfile (p : Profile F) : Profile F :=
  { p with
    weight := clampUnit p.weight
    compatibility := clampUnit p.compatibility
    creative := clampMap p.creative
    behavioral := clampMap p.behavioral
    technical := clampMap p.technical }

/-- an expectation between zero and a bound, which a number must not find below zero -/
def clampExpectation (max v : F) : Except FusionError F :=
  match clampChecked? 0.0 max v with
  | some w => .ok w
  | none => .error .emptyInterval

def clampProjection (max : F) (x : Projection F) : Except FusionError (Projection F) := do
  let visual ← clampExpectation max x.visual
  let performance ← clampExpectation max x.performance
  let creative ← clampExpectation max x.creative
  let behavioral ← clampExpectation max x.behavioral
  pure ⟨visual, performance, creative, behavioral⟩

/-- brings weights and contributions into the unit interval and expectations between zero and
`max` -/
def clampTo (max : F) : Moderator F := fun b => do
  let expected ← clampProjection max b.expected
  pure { b with
    intensity := clampUnit b.intensity
    modules := b.modules.map clampProfile
    expected := expected }

/-- the moderator in use when none is given -/
def standard : Moderator F := clampTo 100.0

end Moderator

/-! ### Shapes -/

/-- what is fixed of a module -/
structure ModuleTags where
  id : String
  specialization : Specialization
  algorithm : Algorithm
  deriving DecidableEq, Repr

/-- what is fixed of an essence -/
structure EssenceTags where
  core : CoreBehavior
  aesthetic : Aesthetic
  emotion : Emotion
  platforms : TagSet Platform
  memory : Tier
  cpu : Tier
  deriving DecidableEq

/-- what a moderator may not change -/
structure Shape where
  modules : List ModuleTags
  strategy : Strategy
  level : UInt8
  essence : EssenceTags
  deriving DecidableEq

namespace Shape

def ofProfile {F : Type} (p : Profile F) : ModuleTags :=
  ⟨p.moduleId, p.specialization, p.algorithm⟩

def ofEssence {F : Type} (e : Essence F) : EssenceTags where
  core := e.core
  aesthetic := e.dna.aesthetic
  emotion := e.dna.emotion
  platforms := e.technical.platforms
  memory := e.technical.performance.memory
  cpu := e.technical.performance.cpu

def of {F : Type} (b : Blueprint F) : Shape where
  modules := b.modules.map ofProfile
  strategy := b.strategy
  level := b.level
  essence := ofEssence b.essence

def ids (s : Shape) : List String := s.modules.map (·.id)

def moduleBreach? (before after : ModuleTags) : Option Breach :=
  if after.specialization ≠ before.specialization then
    some (.specialization before.id (Tag.name before.specialization)
      (Tag.name after.specialization))
  else if after.algorithm ≠ before.algorithm then
    some (.algorithm before.id (Tag.name before.algorithm) (Tag.name after.algorithm))
  else none

/-- the first difference between two shapes -/
def breach? (before after : Shape) : Option Breach :=
  if after.ids ≠ before.ids then some (.moduleList before.ids after.ids)
  else match (before.modules.zip after.modules).findSome? (fun p => moduleBreach? p.1 p.2) with
    | some b => some b
    | none =>
      if after.strategy ≠ before.strategy then
        some (.strategy (Tag.name before.strategy) (Tag.name after.strategy))
      else if after.level ≠ before.level then some (.level before.level after.level)
      else if after.essence.core.animation ≠ before.essence.core.animation then
        some (.animation (Tag.name before.essence.core.animation)
          (Tag.name after.essence.core.animation))
      else if after.essence ≠ before.essence then some .essenceTags
      else none

/-- accepts a moderated blueprint of this shape -/
def verify {F : Type} (before : Shape) (moderated : Blueprint F) : Except FusionError Unit :=
  match before.breach? (of moderated) with
  | some b => .error (.moderation b)
  | none => .ok ()

end Shape

/-- what a moderator makes of a blueprint, if it keeps the shape -/
def moderated {F : Type} (moderator : Moderator F) (b : Blueprint F) :
    Except FusionError (Blueprint F) := do
  let after ← moderator b
  (Shape.of b).verify after
  pure after

end EffectFusion
