import EffectFusion.Config
import EffectFusion.Essence.Extract
import EffectFusion.Identifier

/-!
# Fusing

A studio holds a catalogue, a table of policies, a moderator and possibly a generator of ids.  A
fusion has three steps: `draft` does all the work and touches nothing, `drawId` draws an id from
the generator or, without one, from the history, and the finished record goes into the history.
So a fusion that fails before its last step draws no id.
-/

namespace EffectFusion

/-! ### The blueprint of a fusion -/

section

variable {F : Type} [Scalar F]

/-- the moderated blueprint of a source at a level: the level must be known, then the options
finite, then the moderator must keep the shape -/
def draftBlueprint (catalog : Catalog F) (policies : PolicyTable F) (moderator : Moderator F)
    (source : List Char) (level : UInt8) (options : Options F) :
    Except FusionError (Blueprint F) := do
  let policy ← policies.get level
  options.check
  let essence := Essence.extract source
  let profiles := analyze essence (catalog.select level)
  moderated moderator (Blueprint.build essence profiles policy options)

end

/-! ### Studios -/

structure Studio where
  catalog : Catalog Float
  policies : PolicyTable Float
  moderator : Moderator Float
  ids : Option IdGenerator

/-- a fusion without its id -/
structure Draft where
  blueprint : Blueprint Float
  code : List Char
  report : Report
  summary : Summary

def Draft.record (d : Draft) (id : String) : Record :=
  ⟨d.blueprint, ⟨id, d.code, d.report, d.summary⟩⟩

namespace Studio

/-- a studio with the usual moderator and ids from the history -/
def ofParts (catalog : Catalog Float) (policies : PolicyTable Float) : Studio :=
  ⟨catalog, policies, Moderator.standard, none⟩

def builtin : Studio := ofParts Catalog.builtin PolicyTable.builtin

/-- the studio of a configuration, which must be sound -/
def ofConfig (c : Config Float) : Except FusionError Studio := do
  let (catalog, policies) ← c.parts
  pure (ofParts catalog policies)

/-- the modules of a known level in the order in which they are used -/
def select (s : Studio) (level : UInt8) : Except FusionError (List (Enhancement Float)) := do
  let _ ← s.policies.get level
  pure (s.catalog.select level)

/-- all of a fusion but its id -/
def draft (s : Studio) (source : List Char) (level : UInt8) (options : Options Float) :
    Except FusionError Draft := do
  let b ← draftBlueprint s.catalog s.policies s.moderator source level options
  let fused := synthesize b
  let r ← reconstruct fused
  pure ⟨b, r.code, Report.of b.essence b r, Summary.of fused⟩

/-- draws an id from the generator of the studio or else from the history -/
def drawId (s : Studio) (h : History) : String × Studio × History :=
  match s.ids with
  | some g => (g.next.1, { s with ids := some g.next.2 }, h)
  | none => (h.nextId.1, s, h.nextId.2)

/-- a fusion: its outcome, and the studio and the history after it -/
def fuse (s : Studio) (h : History) (source : List Char) (level : UInt8)
    (options : Options Float) : Except FusionError Artifact × Studio × History :=
  match s.draft source level options with
  | .error e => (.error e, s, h)
  | .ok d =>
    let (id, s, h) := s.drawId h
    let record := d.record id
    match h.insert id record with
    | .error e => (.error e, s, h)
    | .ok h => (.ok record.artifact, s, h)

def describe (s : Studio) (h : History) : String :=
  "FusionOrchestrator \x7b modules: " ++ toString s.catalog.size ++ ", levels: "
    ++ levelList s.policies.levels ++ ", history: " ++ toString h.size ++ ", .. \x7d"

theorem fuse_of_draft_error (s : Studio) (h : History) (source : List Char) (level : UInt8)
    (options : Options Float) (e : FusionError) (he : s.draft source level options = .error e) :
    s.fuse h source level options = (.error e, s, h) := by
  simp [fuse, he]

end Studio

end EffectFusion
