import EffectFusion.Config
import EffectFusion.Json.Codec
import EffectFusion.Json.Reader

/-!
# Configurations as structured data

A module without priority has no such field; `universal` and `priority` may be missing when a
module is read.  `Config.ofText` reads a configuration and checks it.
-/

namespace EffectFusion.Json

variable {F : Type}

/-- a field that is left out when there is no value -/
def present {α : Type} [Written α] (name : String) : Option α → List (String × Json)
  | some v => [(name, toJson v)]
  | none => []

instance [Written F] : Written (Enhancement F) where
  toJson m := fields ([
    ("id", toJson m.id),
    ("level", toJson m.level),
    ("creative_weight", toJson m.creative),
    ("technical_weight", toJson m.technical),
    ("specialization", toJson m.specialization),
    ("universal", toJson m.universal)] ++ present "priority" m.priority)

instance [Readable F] : Readable (Enhancement F) where
  ofJson? v := do
    match ← fieldValues? ["id", "level", "creative_weight", "technical_weight", "specialization",
        "universal", "priority"] v with
    | [i, l, c, t, s, u, p] =>
      pure ⟨← required i, ← required l, ← required c, ← required t, ← required s,
        ← optional false u, ← optional none p⟩
    | _ => none

instance [Written F] : Written (LevelPolicy F) where
  toJson p := fields [
    ("level", toJson p.level),
    ("strategy", toJson p.strategy),
    ("fusion_intensity", toJson p.intensity),
    ("creativity_factor", toJson p.creativity),
    ("technical_focus", toJson p.technical)]

instance [Readable F] : Readable (LevelPolicy F) where
  ofJson? v := do
    match ← fieldValues? ["level", "strategy", "fusion_intensity", "creativity_factor",
        "technical_focus"] v with
    | [l, s, i, c, t] =>
      pure ⟨← required l, ← required s, ← required i, ← required c, ← required t⟩
    | _ => none

instance [Written F] : Written (Config F) where
  toJson c := fields [("modules", toJson c.modules), ("levels", toJson c.levels)]

instance [Readable F] : Readable (Config F) where
  ofJson? v := do
    match ← fieldValues? ["modules", "levels"] v with
    | [m, l] => pure ⟨← required m, ← required l⟩
    | _ => none

end EffectFusion.Json

namespace EffectFusion

def Config.ofText {F : Type} [Scalar F] [Readable F] (text : String) :
    Except FusionError (Config F) :=
  match (Json.read? text).bind ofJson? with
  | none => .error (.malformed "no configuration")
  | some (c : Config F) => c.check.map (fun _ => c)

def Config.text {F : Type} [Written F] (c : Config F) : String := (toJson c).renderPretty

end EffectFusion
