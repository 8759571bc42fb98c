import EffectFusion.Error
import EffectFusion.Scalar
import EffectFusion.Tag

/-!
# Level policies

A policy says how strongly a level fuses.  The levels of a table are a closed set: asking for
another one is an error that names the known ones.
-/

namespace EffectFusion

inductive Strategy
  | conservative
  | balanced
  | aggressive
  | revolutionary
  deriving DecidableEq, Repr

instance : Tag Strategy where
  all := [.conservative, .balanced, .aggressive, .revolutionary]
  name
    | .conservative => "conservative"
    | .balanced => "balanced"
    | .aggressive => "aggressive"
    | .revolutionary => "revolutionary"
  decEq := inferInstance

/-- the settings of a level; the coefficients lie in the unit interval -/
structure LevelPolicy (F : Type) where
  level : UInt8
  strategy : Strategy
  intensity : F
  creativity : F
  technical : F
  deriving DecidableEq

/-- policies in ascending order of their levels -/
structure PolicyTable (F : Type) where
  policies : List (LevelPolicy F)
  deriving DecidableEq

namespace LevelPolicy

variable {F : Type} [Scalar F]

/-- what is wrong with a policy, the first fault counts -/
def defect? (p : LevelPolicy F) : Option Defect :=
  if !Scalar.isUnit p.intensity then some (.coefficientRange p.level "fusion_intensity")
  else if !Scalar.isUnit p.creativity then some (.coefficientRange p.level "creativity_factor")
  else if !Scalar.isUnit p.technical then some (.coefficientRange p.level "technical_focus")
  else none

def check (p : LevelPolicy F) : Except FusionError Unit :=
  match p.defect? with
  | some d => .error (.validation d)
  | none => .ok ()

end LevelPolicy

/-- the first value that stands next to itself -/
def firstRepeated? : List UInt8 → Option UInt8
  | a :: b :: rest => if a = b then some a else firstRepeated? (b :: rest)
  | _ => none

namespace PolicyTable

variable {F : Type} [Scalar F]

/-- the table of sound policies with different levels, given in any order -/
def ofList (policies : List (LevelPolicy F)) : Except FusionError (PolicyTable F) :=
  if policies.isEmpty then .error (.validation .noLevels)
  else match policies.findSome? LevelPolicy.defect? with
    | some d => .error (.validation d)
    | none =>
      let sorted := policies.mergeSort (fun a b => a.level ≤ b.level)
      match firstRepeated? (sorted.map (·.level)) with
      | some level => .error (.validation (.repeatedLevel level))
      | none => .ok ⟨sorted⟩

def builtin : PolicyTable F where
  policies := [
    ⟨1, .conservative, 0.3, 0.4, 0.6⟩,
    ⟨2, .balanced, 0.6, 0.6, 0.5⟩,
    ⟨3, .revolutionary, 0.9, 0.9, 0.7⟩]

def levels (t : PolicyTable F) : List UInt8 := t.policies.map (·.level)

/-- the highest level, zero when there is none -/
def maxLevel (t : PolicyTable F) : UInt8 :=
  t.policies.foldl (fun n p => if n < p.level then p.level else n) 0

def get (t : PolicyTable F) (level : UInt8) : Except FusionError (LevelPolicy F) :=
  match t.policies.find? (fun p => p.level = level) with
  | some p => .ok p
  | none => .error (.unknownLevel level t.levels)

end PolicyTable

end EffectFusion
