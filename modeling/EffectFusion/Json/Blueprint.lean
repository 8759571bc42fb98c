import EffectFusion.Blueprint
import EffectFusion.Json.Essence

/-!
# Profiles, options and blueprints as structured data

Options that are missing are zero.
-/

namespace EffectFusion.Json

variable {F : Type}

instance [Written F] : Written (Profile F) where
  toJson p := fields [
    ("module_id", toJson p.moduleId),
    ("specialization", toJson p.specialization),
    ("compatibility", toJson p.compatibility),
    ("fusion_weight", toJson p.weight),
    ("creative_contribution", toJson p.creative),
    ("behavioral_influence", toJson p.behavioral),
    ("technical_enhancement", toJson p.technical),
    ("fusion_algorithm", toJson p.algorithm)]

instance [Readable F] : Readable (Profile F) where
  ofJson? v := do
    match ← fieldValues? ["module_id", "specialization", "compatibility", "fusion_weight",
        "creative_contribution", "behavioral_influence", "technical_enhancement",
        "fusion_algorithm"] v with
    | [i, s, c, w, cc, b, t, a] =>
      pure ⟨← required i, ← required s, ← required c, ← required w, ← required cc, ← required b,
        ← required t, ← required a⟩
    | _ => none

instance [Written F] : Written (Options F) where
  toJson o := fields [
    ("creativity_boost", toJson o.creativityBoost),
    ("performance_priority", toJson o.performancePriority),
    ("innovation_level", toJson o.innovationLevel)]

instance [Scalar F] [Readable F] : Readable (Options F) where
  ofJson? v := do
    match ← fieldValues? ["creativity_boost", "performance_priority", "innovation_level"] v with
    | [c, p, i] => pure ⟨← optional 0.0 c, ← optional 0.0 p, ← optional 0.0 i⟩
    | _ => none

instance [Written F] : Written (Projection F) where
  toJson p := fields (p.named.map (fun f => (f.1, toJson f.2)))

instance [Readable F] : Readable (Projection F) where
  ofJson? v := do
    match ← fieldValues? ["visual_enhancement", "performance_gain", "creative_evolution",
        "behavioral_complexity"] v with
    | [a, p, c, b] => pure ⟨← required a, ← required p, ← required c, ← required b⟩
    | _ => none

instance [Written F] : Written (Blueprint F) where
  toJson b := fields [
    ("original_essence", toJson b.essence),
    ("active_modules", toJson b.modules),
    ("strategy", toJson b.strategy),
    ("reconstruction_level", toJson b.level),
    ("fusion_intensity", toJson b.intensity),
    ("expected_transformation", toJson b.expected)]

instance [Readable F] : Readable (Blueprint F) where
  ofJson? v := do
    match ← fieldValues? ["original_essence", "active_modules", "strategy",
        "reconstruction_level", "fusion_intensity", "expected_transformation"] v with
    | [e, m, s, l, i, x] =>
      pure ⟨← required e, ← required m, ← required s, ← required l, ← required i, ← required x⟩
    | _ => none

end EffectFusion.Json
