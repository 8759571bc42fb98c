import EffectFusion.Error
import EffectFusion.Scalar
import EffectFusion.Tag
import EffectFusion.Text.Class

/-!
# The catalogue of enhancement modules

A module is never run, it is only scored.  A catalogue keeps its modules in the order in which
they were given; `Catalog.select` is the one place that orders them.
-/

namespace EffectFusion

inductive Specialization
  | creativity
  | performance
  | visual
  | motion
  | interaction
  | security
  | visualization
  | harmony
  deriving DecidableEq, Repr

instance : Tag Specialization where
  all := [.creativity, .performance, .visual, .motion, .interaction, .security, .visualization,
    .harmony]
  name
    | .creativity => "creativity"
    | .performance => "performance"
    | .visual => "visual"
    | .motion => "motion"
    | .interaction => "interaction"
    | .security => "security"
    | .visualization => "visualization"
    | .harmony => "harmony"
  decEq := inferInstance

/-- an enhancement module; the weights lie in the unit interval -/
structure Enhancement (F : Type) where
  id : String
  level : UInt8
  creative : F
  technical : F
  specialization : Specialization
  universal : Bool
  priority : Option Int32
  deriving DecidableEq

/-- the modules in the order in which they were given -/
structure Catalog (F : Type) where
  modules : List (Enhancement F)
  deriving DecidableEq

def isBlankText (s : String) : Bool := s.toList.all Text.isBlank

namespace Enhancement

variable {F : Type} [Scalar F]

/-- what is wrong with a module, the first fault counts -/
def defect? (m : Enhancement F) : Option Defect :=
  if isBlankText m.id then some .blankId
  else if m.level = 0 then some (.levelZero m.id)
  else if !Scalar.isUnit m.creative then some (.weightRange m.id "creative_weight")
  else if !Scalar.isUnit m.technical then some (.weightRange m.id "technical_weight")
  else none

def check (m : Enhancement F) : Except FusionError Unit :=
  match m.defect? with
  | some d => .error (.validation d)
  | none => .ok ()

def activeAt (level : UInt8) (m : Enhancement F) : Bool := m.level ≤ level || m.universal

/-- the higher priority comes first, none comes last -/
def priorityAbove : Option Int32 → Option Int32 → Bool
  | some a, some b => b < a
  | some _, none => true
  | none, _ => false

/-- `a` may stand before `b`: universal modules first, then by priority, level and technical
weight, the higher first -/
def mayPrecede (a b : Enhancement F) : Bool :=
  if a.universal ≠ b.universal then a.universal
  else if a.priority ≠ b.priority then priorityAbove a.priority b.priority
  else if a.level ≠ b.level then b.level < a.level
  else Scalar.place b.technical ≤ Scalar.place a.technical

end Enhancement

namespace Catalog

variable {F : Type} [Scalar F]

/-- what is wrong with a list of modules whose predecessors have the ids `seen` -/
def defectFrom? (seen : List String) : List (Enhancement F) → Option Defect
  | [] => none
  | m :: rest =>
    match m.defect? with
    | some d => some d
    | none => if seen.contains m.id then some (.repeatedId m.id) else defectFrom? (m.id :: seen) rest

/-- a catalogue of sound modules with different ids -/
def ofList (modules : List (Enhancement F)) : Except FusionError (Catalog F) :=
  match defectFrom? [] modules with
  | some d => .error (.validation d)
  | none => .ok ⟨modules⟩

/-- a module without priority that is not universal -/
def plain (id : String) (level : UInt8) (creative technical : F)
    (specialization : Specialization) : Enhancement F :=
  ⟨id, level, creative, technical, specialization, false, none⟩

def builtin : Catalog F where
  modules := [
    ⟨"contextual_harmony", 2, 0.5, 0.5, .harmony, true, some 10⟩,
    ⟨"frame_budget_optimizer", 1, 0.2, 0.9, .performance, true, some 5⟩,
    plain "color_theory" 1 0.7 0.3 .visual,
    plain "easing_choreographer" 1 0.6 0.4 .motion,
    plain "particle_enhancer" 2 0.8 0.5 .creativity,
    plain "shader_library" 2 0.7 0.85 .visual,
    plain "interaction_telemetry" 2 0.3 0.7 .interaction,
    plain "input_sanitizer" 2 0.1 0.8 .security,
    ⟨"creative_intelligence", 3, 0.95, 0.6, .creativity, false, some 3⟩,
    plain "quantum_renderer" 3 0.9 0.9 .visualization,
    plain "adaptive_physics" 3 0.6 0.8 .motion]

def get? (c : Catalog F) (id : String) : Option (Enhancement F) :=
  c.modules.find? (fun m => m.id = id)

def size (c : Catalog F) : Nat := c.modules.length

def isEmpty (c : Catalog F) : Bool := c.modules.isEmpty

/-- the highest level of a module, zero when there is none -/
def maxLevel (c : Catalog F) : UInt8 :=
  c.modules.foldl (fun n m => if n < m.level then m.level else n) 0

/-- the modules that take part at a level, in the order in which they are used; modules equal in
all that the order looks at keep the order of the catalogue -/
def select (c : Catalog F) (level : UInt8) : List (Enhancement F) :=
  (c.modules.filter (fun m => m.activeAt level)).mergeSort (fun a b => a.mayPrecede b)

theorem select_perm (c : Catalog F) (level : UInt8) :
    (c.select level).Perm (c.modules.filter (fun m => m.activeAt level)) :=
  List.mergeSort_perm _ _

end Catalog

end EffectFusion
