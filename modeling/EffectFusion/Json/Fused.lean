import EffectFusion.Fused
import EffectFusion.Json.Blueprint

/-!
# Fused essences as structured data
-/

namespace EffectFusion.Json

variable {F : Type}

instance [Written F] : Written (EnhancedProperty F) where
  toJson p := fields [
    ("algorithm", toJson p.algorithm),
    ("intensity", toJson p.intensity),
    ("aesthetic", toJson p.aesthetic),
    ("innovation", toJson p.innovation)]

instance [Readable F] : Readable (EnhancedProperty F) where
  ofJson? v := do
    match ← fieldValues? ["algorithm", "intensity", "aesthetic", "innovation"] v with
    | [a, i, e, n] => pure ⟨← required a, ← required i, ← required e, ← required n⟩
    | _ => none

instance [Written F] : Written (Integration F) where
  toJson m := fields [
    ("rank", toJson m.rank),
    ("specialization", toJson m.specialization),
    ("algorithm", toJson m.algorithm),
    ("weight", toJson m.weight),
    ("behavioral", toJson m.behavioral),
    ("technical", toJson m.technical)]

instance [Readable F] : Readable (Integration F) where
  ofJson? v := do
    match ← fieldValues? ["rank", "specialization", "algorithm", "weight", "behavioral",
        "technical"] v with
    | [r, s, a, w, b, t] =>
      pure ⟨← required r, ← required s, ← required a, ← required w, ← required b, ← required t⟩
    | _ => none

instance [Written F] : Written (Evolution F) where
  toJson e := fields (e.named.map (fun f => (f.1, toJson f.2)))

instance [Readable F] : Readable (Evolution F) where
  ofJson? v := do
    match ← fieldValues? ["aesthetic_evolution", "behavioral_sophistication",
        "innovation_breakthrough", "fusion_harmony", "fusion_coherence"] v with
    | [a, b, i, h, c] =>
      pure ⟨← required a, ← required b, ← required i, ← required h, ← required c⟩
    | _ => none

instance [Written F] : Written (FusedEssence F) where
  toJson f := fields [
    ("original_essence", toJson f.essence),
    ("strategy", toJson f.strategy),
    ("reconstruction_level", toJson f.level),
    ("fusion_intensity", toJson f.intensity),
    ("enhanced_properties", toJson f.enhanced),
    ("module_integrations", toJson f.integrations),
    ("evolution", toJson f.evolution)]

instance [Readable F] : Readable (FusedEssence F) where
  ofJson? v := do
    match ← fieldValues? ["original_essence", "strategy", "reconstruction_level",
        "fusion_intensity", "enhanced_properties", "module_integrations", "evolution"] v with
    | [o, s, l, i, p, m, e] =>
      pure ⟨← required o, ← required s, ← required l, ← required i, ← required p, ← required m,
        ← required e⟩
    | _ => none

end EffectFusion.Json
