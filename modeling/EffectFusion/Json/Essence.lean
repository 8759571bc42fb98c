import EffectFusion.Essence.Basic
import EffectFusion.Json.Codec

/-!
# Essences as structured data
-/

namespace EffectFusion.Json

variable {F : Type}

instance : Written CoreBehavior where
  toJson c := fields [
    ("animation_type", toJson c.animation),
    ("movement_patterns", toJson c.movements),
    ("visual_properties", toJson c.visual),
    ("mathematical_foundation", toJson c.mathematics)]

instance : Readable CoreBehavior where
  ofJson? v := do
    match ← fieldValues? ["animation_type", "movement_patterns", "visual_properties",
        "mathematical_foundation"] v with
    | [a, m, x, f] => pure ⟨← required a, ← required m, ← required x, ← required f⟩
    | _ => none

instance [Written F] : Written (CreativeDna F) where
  toJson d := fields [
    ("energy_level", toJson d.energy),
    ("complexity_factor", toJson d.complexity),
    ("innovation_index", toJson d.innovation),
    ("aesthetic_signature", toJson d.aesthetic),
    ("emotional_impact", toJson d.emotion)]

instance [Readable F] : Readable (CreativeDna F) where
  ofJson? v := do
    match ← fieldValues? ["energy_level", "complexity_factor", "innovation_index",
        "aesthetic_signature", "emotional_impact"] v with
    | [e, c, i, a, m] =>
      pure ⟨← required e, ← required c, ← required i, ← required a, ← required m⟩
    | _ => none

instance [Written F] : Written (Performance F) where
  toJson p := fields [
    ("estimated_fps", toJson p.fps),
    ("memory_tier", toJson p.memory),
    ("cpu_tier", toJson p.cpu)]

instance [Readable F] : Readable (Performance F) where
  ofJson? v := do
    match ← fieldValues? ["estimated_fps", "memory_tier", "cpu_tier"] v with
    | [f, m, c] => pure ⟨← required f, ← required m, ← required c⟩
    | _ => none

instance [Written F] : Written (TechnicalAspects F) where
  toJson t := fields [
    ("performance", toJson t.performance),
    ("compatibility", toJson t.platforms),
    ("optimization_potential", toJson t.optimization)]

instance [Readable F] : Readable (TechnicalAspects F) where
  ofJson? v := do
    match ← fieldValues? ["performance", "compatibility", "optimization_potential"] v with
    | [p, c, o] => pure ⟨← required p, ← required c, ← required o⟩
    | _ => none

instance [Written F] : Written (Receptivity F) where
  toJson r := fields [
    ("adaptation_flexibility", toJson r.flexibility),
    ("enhancement_receptivity", toJson r.receptivity)]

instance [Readable F] : Readable (Receptivity F) where
  ofJson? v := do
    match ← fieldValues? ["adaptation_flexibility", "enhancement_receptivity"] v with
    | [a, e] => pure ⟨← required a, ← required e⟩
    | _ => none

instance [Written F] : Written (Essence F) where
  toJson e := fields [
    ("core_behavior", toJson e.core),
    ("creative_dna", toJson e.dna),
    ("technical_aspects", toJson e.technical),
    ("fusion_compatibility", toJson e.fusion)]

instance [Readable F] : Readable (Essence F) where
  ofJson? v := do
    match ← fieldValues? ["core_behavior", "creative_dna", "technical_aspects",
        "fusion_compatibility"] v with
    | [c, d, t, f] => pure ⟨← required c, ← required d, ← required t, ← required f⟩
    | _ => none

end EffectFusion.Json
