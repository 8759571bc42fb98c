import EffectFusion.Catalog
import EffectFusion.Policy

/-!
# Configurations

A configuration is a list of modules and a list of policies.  It is sound when both lists are and
no module has a level above all policies.
-/

namespace EffectFusion

structure Config (F : Type) where
  modules : List (Enhancement F)
  levels : List (LevelPolicy F)
  deriving DecidableEq

namespace Config

variable {F : Type} [Scalar F]

def builtin : Config F := ⟨Catalog.builtin.modules, PolicyTable.builtin.policies⟩

/-- the catalogue and the table of a sound configuration; faults of the table count before faults
of the modules -/
def parts (c : Config F) : Except FusionError (Catalog F × PolicyTable F) :=
  match PolicyTable.ofList c.levels with
  | .error e => .error e
  | .ok table =>
    let highest := table.maxLevel
    match c.modules.find? (fun m => highest < m.level) with
    | some m => .error (.validation (.levelUncovered m.id m.level highest))
    | none =>
      match Catalog.ofList c.modules with
      | .error e => .error e
      | .ok catalog => .ok (catalog, table)

/-- nothing for a sound configuration, otherwise its first fault -/
def check (c : Config F) : Except FusionError Unit := c.parts.map (fun _ => ())

end Config

end EffectFusion
