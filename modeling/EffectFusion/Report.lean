import EffectFusion.Fingerprint
import EffectFusion.Moderation
import EffectFusion.Reconstruction

/-!
# Reports

A report describes a finished fusion: what the effect was, what each module added, what is new and
how large the outcome is.  It depends on nothing but the blueprint and the scripts.
-/

namespace EffectFusion

open Number (fixed)

/-- what a module added -/
structure Contribution where
  moduleId : String
  specialization : Specialization
  algorithm : Algorithm
  weight : Float
  summary : String
  deriving DecidableEq

/-- the measures of a fusion -/
structure Metrics where
  generatedBytes : Nat
  compressedBytes : Nat
  ratio : Float
  moduleCount : Nat
  averageWeight : Float
  expected : Projection Float
  /-- digest of the compressed script -/
  fingerprint : String
  deriving DecidableEq

structure Report where
  strategy : Strategy
  level : UInt8
  characteristics : List String
  contributions : List Contribution
  innovations : List String
  metrics : Metrics
  deriving DecidableEq

structure Summary where
  strategy : Strategy
  metrics : Evolution Float
  headline : String
  deriving DecidableEq

namespace Report

/-! ### What the effect was -/

/-- items with commas between them -/
def listed (items : List String) : String :=
  if items.isEmpty then "none detected" else String.intercalate ", " items

def tagNames {α : Type} [Tag α] (s : TagSet α) : List String := s.members.map Tag.name

def characteristicsOf (e : Essence Float) : List String := [
  "animation type: " ++ Tag.name e.core.animation,
  "movement patterns: " ++ listed (tagNames e.core.movements),
  "visual properties: " ++ listed e.visualFeatures,
  "mathematical foundation: " ++ listed e.mathFeatures,
  "creative dna: energy " ++ fixed 2 e.dna.energy ++ ", complexity " ++ fixed 2 e.dna.complexity
    ++ ", innovation " ++ fixed 2 e.dna.innovation,
  "aesthetic: " ++ Tag.name e.dna.aesthetic ++ ", emotional impact: " ++ Tag.name e.dna.emotion,
  "performance: ~" ++ fixed 0 e.technical.performance.fps ++ " fps, memory "
    ++ Tag.name e.technical.performance.memory ++ ", cpu "
    ++ Tag.name e.technical.performance.cpu,
  "platform: " ++ listed (tagNames e.technical.platforms)]

/-! ### What the modules added -/

def contributionOf (p : Profile Float) : Contribution where
  moduleId := p.moduleId
  specialization := p.specialization
  algorithm := p.algorithm
  weight := p.weight
  summary := Tag.name p.specialization ++ " module fused via " ++ Tag.name p.algorithm
    ++ " at weight " ++ fixed 2 p.weight

/-- what is new because of a module -/
def moduleInnovation? (e : Essence Float) (p : Profile Float) : Option String :=
  match p.algorithm with
  | .quantum =>
    some (p.moduleId ++ ": quantum fusion reshapes the " ++ Tag.name e.core.animation ++ " core")
  | .creative =>
    some (p.moduleId ++ ": creative enhancement at weight " ++ fixed 2 p.weight)
  | _ => none

/-- what is new as a whole -/
def overallInnovations (b : Blueprint Float) : List String :=
  (if b.strategy = .revolutionary then
    ["revolutionary restructuring of the original behaviour"] else [])
  ++ (if b.expected.creative ≥ 80.0 then
    ["high creative evolution projected (" ++ fixed 0 b.expected.creative ++ "%)"] else [])

def innovationsOf (e : Essence Float) (b : Blueprint Float) : List String :=
  b.modules.filterMap (moduleInnovation? e) ++ overallInnovations b

/-! ### The report -/

def averageWeight (ps : List (Profile Float)) : Float :=
  if ps.isEmpty then 0.0 else Scalar.round4 (mean (ps.map (·.weight)))

def metricsOf (b : Blueprint Float) (r : Reconstruction) : Metrics where
  generatedBytes := Script.byteLength r.generated
  compressedBytes := Script.byteLength r.code
  ratio := Scalar.round4 (Script.ratio r.stats)
  moduleCount := b.modules.length
  averageWeight := averageWeight b.modules
  expected := b.expected
  fingerprint := Fingerprint.hex (Fingerprint.ofText (String.ofList r.code))

def of (e : Essence Float) (b : Blueprint Float) (r : Reconstruction) : Report where
  strategy := b.strategy
  level := b.level
  characteristics := characteristicsOf e
  contributions := b.modules.map contributionOf
  innovations := innovationsOf e b
  metrics := metricsOf b r

/-! ### As text -/

def item (s : String) : String := "  - " ++ s ++ "\n"

def items (ss : List String) : String := String.join (ss.map item)

def metricsText (m : Metrics) : String :=
  "  code: " ++ toString m.generatedBytes ++ " -> " ++ toString m.compressedBytes
    ++ " bytes (ratio " ++ fixed 3 m.ratio ++ "), fingerprint " ++ m.fingerprint ++ "\n"
    ++ "  modules: " ++ toString m.moduleCount ++ " (average weight " ++ fixed 3 m.averageWeight
    ++ ")\n"
    ++ "  projected: visual " ++ fixed 1 m.expected.visual
    ++ ", performance " ++ fixed 1 m.expected.performance
    ++ ", creative " ++ fixed 1 m.expected.creative
    ++ ", behavioral " ++ fixed 1 m.expected.behavioral ++ "\n"

def text (r : Report) : String :=
  "Fusion report: " ++ Tag.name r.strategy ++ " strategy, level " ++ toString r.level.toNat ++ "\n"
    ++ "\nOriginal characteristics:\n" ++ items r.characteristics
    ++ "\nModule contributions:\n"
    ++ items (r.contributions.map (fun c => c.moduleId ++ ": " ++ c.summary))
    ++ "\nInnovations:\n"
    ++ (if r.innovations.isEmpty then "  (none)\n" else items r.innovations)
    ++ "\nMetrics:\n" ++ metricsText r.metrics

end Report

namespace Summary

/-- the first of the largest numbers with its name -/
def peak (named : List (String × Float)) : String × Float :=
  named.foldl (fun best n => if best.2 < n.2 then n else best) ("", -Scalar.infinity)

/-- a field name as words -/
def spaced (name : String) : String := name.map (fun c => if c = '_' then ' ' else c)

def of (f : FusedEssence Float) : Summary :=
  let top := peak f.evolution.named
  { strategy := f.strategy
    metrics := f.evolution
    headline := Tag.name f.strategy ++ " fusion of " ++ toString f.integrations.size
      ++ " module(s); strongest gain in " ++ spaced top.1 ++ " (" ++ fixed 2 top.2 ++ ")" }

end Summary

end EffectFusion
