import EffectFusion.Script.Compression
import EffectFusion.Template

/-!
# Reconstruction: the script of a fused essence, compressed
-/

namespace EffectFusion

/-- the script as generated, the compressed script and the notes of the passes -/
structure Reconstruction where
  generated : List Char
  code : List Char
  stats : List Script.PassStat
  deriving DecidableEq

def reconstruct (f : FusedEssence Float) : Except FusionError Reconstruction := do
  let generated ← generate f
  let (code, stats) ← Script.compress generated
  pure ⟨generated, code, stats⟩

end EffectFusion
