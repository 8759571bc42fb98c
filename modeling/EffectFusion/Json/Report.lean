import EffectFusion.Json.Fused
import EffectFusion.Report

/-!
# Reports as structured data
-/

namespace EffectFusion.Json

instance : Written Contribution where
  toJson c := fields [
    ("module_id", toJson c.moduleId),
    ("specialization", toJson c.specialization),
    ("algorithm", toJson c.algorithm),
    ("fusion_weight", toJson c.weight),
    ("summary", toJson c.summary)]

instance : Readable Contribution where
  ofJson? v := do
    match ← fieldValues? ["module_id", "specialization", "algorithm", "fusion_weight",
        "summary"] v with
    | [i, s, a, w, t] =>
      pure ⟨← required i, ← required s, ← required a, ← required w, ← required t⟩
    | _ => none

instance : Written Metrics where
  toJson m := fields ([
    ("generated_bytes", toJson m.generatedBytes),
    ("compressed_bytes", toJson m.compressedBytes),
    ("compression_ratio", toJson m.ratio),
    ("module_count", toJson m.moduleCount),
    ("average_fusion_weight", toJson m.averageWeight)]
    ++ m.expected.named.map (fun f => (f.1, toJson f.2))
    ++ [("output_fingerprint", toJson m.fingerprint)])

instance : Readable Metrics where
  ofJson? v := do
    match ← fieldValues? ["generated_bytes", "compressed_bytes", "compression_ratio",
        "module_count", "average_fusion_weight", "visual_enhancement", "performance_gain",
        "creative_evolution", "behavioral_complexity", "output_fingerprint"] v with
    | [g, c, r, n, w, x, p, e, b, f] =>
      pure ⟨← required g, ← required c, ← required r, ← required n, ← required w,
        ⟨← required x, ← required p, ← required e, ← required b⟩, ← required f⟩
    | _ => none

instance : Written Report where
  toJson r := fields [
    ("strategy", toJson r.strategy),
    ("reconstruction_level", toJson r.level),
    ("original_characteristics", toJson r.characteristics),
    ("module_contributions", toJson r.contributions),
    ("innovations", toJson r.innovations),
    ("metrics", toJson r.metrics)]

instance : Readable Report where
  ofJson? v := do
    match ← fieldValues? ["strategy", "reconstruction_level", "original_characteristics",
        "module_contributions", "innovations", "metrics"] v with
    | [s, l, c, m, i, x] =>
      pure ⟨← required s, ← required l, ← required c, ← required m, ← required i, ← required x⟩
    | _ => none

instance : Written Summary where
  toJson s := fields [
    ("strategy", toJson s.strategy),
    ("metrics", toJson s.metrics),
    ("headline", toJson s.headline)]

end EffectFusion.Json
