import EffectFusion.Catalog
import EffectFusion.Essence.Basic

/-!
# Profiles: what a module does to an essence

Each module gets a weight from how well it fits the essence, what it adds to each side of the
effect, and the algorithm by which it is fused.  No profile depends on another module.
-/

namespace EffectFusion

inductive Algorithm
  | harmonic
  | quantum
  | creative
  | technical
  | hybrid
  deriving DecidableEq, Repr

instance : Tag Algorithm where
  all := [.harmonic, .quantum, .creative, .technical, .hybrid]
  name
    | .harmonic => "harmonic"
    | .quantum => "quantum"
    | .creative => "creative"
    | .technical => "technical"
    | .hybrid => "hybrid"
  decEq := inferInstance

/-- modules fused this way enhance properties of the output -/
def Algorithm.isExpressive : Algorithm → Bool
  | .creative | .quantum => true
  | _ => false

/-- the scored influence of a module -/
structure Profile (F : Type) where
  moduleId : String
  specialization : Specialization
  compatibility : F
  weight : F
  creative : Keyed F
  behavioral : Keyed F
  technical : Keyed F
  algorithm : Algorithm
  deriving DecidableEq

/-! ### Algorithms -/

section

variable {F : Type} [Scalar F]

open Scalar

/-- what the choice of an algorithm looks at -/
structure AlgorithmInput (F : Type) where
  creative : F
  technical : F
  innovation : F

/-- algorithms with their conditions; the first that holds counts -/
def algorithmRules : List (Algorithm × (AlgorithmInput F → Bool)) := [
  (.quantum, fun i => less 0.8 i.creative && less 0.8 i.technical && less 0.5 i.innovation),
  (.creative, fun i => less 0.7 i.creative && less 0.4 i.innovation),
  (.technical, fun i => less 0.7 i.technical),
  (.hybrid, fun i => atMost 0.5 i.creative && atMost 0.5 i.technical)]

def chooseAlgorithm (i : AlgorithmInput F) : Algorithm :=
  ((algorithmRules.find? (fun r => r.2 i)).map (·.1)).getD .harmonic

/-! ### Compatibility -/

/-- an addition to the compatibility of modules of a specialization -/
structure Bonus (F : Type) where
  specialization : Specialization
  amount : F
  applies : Essence F → Bool

def bonuses : List (Bonus F) := [
  ⟨.creativity, 0.2, fun e => less 0.7 e.dna.innovation⟩,
  ⟨.performance, 0.15, fun e => less 0.6 e.technical.optimization⟩,
  ⟨.visual, 0.1, fun e => 2 ≤ e.visualFeatures.length⟩,
  ⟨.motion, 0.1, fun e => !e.core.movements.isEmpty⟩,
  ⟨.visualization, 0.1, fun e => less 0.5 e.dna.innovation⟩,
  ⟨.harmony, 0.05, fun e => less 0.5 e.fusion.flexibility⟩]

/-- how well a module fits an essence -/
def compatibility (e : Essence F) (m : Enhancement F) : F :=
  let applicable := bonuses.filter (fun b => b.specialization = m.specialization && b.applies e)
  clampUnit (0.7 + sum (applicable.map (·.amount)))

/-! ### Profiles -/

/-- a map of amounts with four decimal places -/
def amounts (es : List (String × F)) : Keyed F :=
  Keyed.ofList (es.map (fun e => (e.1, round4 e.2)))

def profile (e : Essence F) (m : Enhancement F) : Profile F :=
  let innovation := e.dna.innovation
  let optimization := e.technical.optimization
  let fit := compatibility e m
  let weight :=
    score (fit * 0.5 + m.creative * innovation * 0.3 + m.technical * optimization * 0.2)
  { moduleId := m.id
    specialization := m.specialization
    compatibility := round4 fit
    weight := weight
    creative := amounts [
      ("aesthetic", m.creative * weight),
      ("innovation", m.creative * innovation),
      ("energy", m.creative * e.dna.energy)]
    behavioral := amounts [
      ("movement", weight * e.fusion.flexibility),
      ("rhythm", weight * e.dna.energy)]
    technical := amounts [
      ("performance", m.technical * optimization),
      ("efficiency", m.technical * weight)]
    algorithm := chooseAlgorithm ⟨m.creative, m.technical, innovation⟩ }

/-- `a` may stand before `b`: the heavier first -/
def Profile.mayPrecede (a b : Profile F) : Bool := place b.weight ≤ place a.weight

/-- the profiles of modules, the heaviest first; equally heavy ones keep their order -/
def analyze (e : Essence F) (modules : List (Enhancement F)) : List (Profile F) :=
  (modules.map (profile e)).mergeSort (fun a b => a.mayPrecede b)

theorem analyze_perm (e : Essence F) (modules : List (Enhancement F)) :
    (analyze e modules).Perm (modules.map (profile e)) := List.mergeSort_perm _ _

end

end EffectFusion
