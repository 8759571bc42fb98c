import EffectFusion.History
import EffectFusion.Json.Report

/-!
# Artifacts as structured data
-/

namespace EffectFusion.Json

instance : Written Artifact where
  toJson a := fields [
    ("fusion_id", toJson a.id),
    ("code", .text (String.ofList a.code)),
    ("transformation_report", toJson a.report),
    ("creative_evolution_summary", toJson a.summary)]

end EffectFusion.Json
