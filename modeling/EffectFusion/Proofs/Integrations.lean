import EffectFusion.Fused
import EffectFusion.Proofs.Keyed
import EffectFusion.Proofs.Moderation

/-!
# Synthesis loses no module

The integrations are a map by name, and names have nothing to do with ranks.  With different names
no entry covers another, so the entries are those of the list in another order (`Keyed.perm_ofList`),
and since no two have one rank, sorting them by rank brings the order of the blueprint back.

* `byRank_integrationsOf`   the integrations by rank are the modules in order;
* `get?_enhancedOf`         what is enhanced, under its own name;
* `synthesize_keeps`        both, for the whole fused essence.
-/

namespace EffectFusion

section

variable {F : Type}

def byRank (m : Keyed (Integration F)) : List (String × Integration F) :=
  m.entries.mergeSort (fun a b => a.2.rank ≤ b.2.rank)

theorem byRank_perm (m : Keyed (Integration F)) : (byRank m).Perm m.entries :=
  List.mergeSort_perm _ _

theorem byRank_ascending (m : Keyed (Integration F)) :
    (byRank m).Pairwise (fun a b => a.2.rank ≤ b.2.rank) := by
  refine (List.pairwise_mergeSort (fun a b c => ?_) (fun a b => ?_) _).imp of_decide_eq_true
  · simpa only [decide_eq_true_eq] using Nat.le_trans
  · simpa only [Bool.or_eq_true, decide_eq_true_eq] using Nat.le_total _ _

/-! ### Integrations -/

/-- the integration of each module under its name -/
def integrationEntries (ps : List (Profile F)) : List (String × Integration F) :=
  ps.zipIdx.map (fun p => (p.1.moduleId, integration p.2 p.1))

/-- what does not look at the rank can be read from the module itself -/
theorem map_integrationEntries {A : Type} {f : String × Integration F → A} {g : Profile F → A}
    (h : ∀ rank p, f (p.moduleId, integration rank p) = g p) (ps : List (Profile F)) :
    (integrationEntries ps).map f = ps.map g := by
  calc (integrationEntries ps).map f
      = ps.zipIdx.map (fun p => g p.1) := by
        rw [integrationEntries, List.map_map]
        exact List.map_congr_left fun p _ => h p.2 p.1
    _ = (ps.zipIdx.map (·.1)).map g := by
        rw [List.map_map]
        rfl
    _ = ps.map g := by rw [List.zipIdx_map_fst]

theorem ranks_integrationEntries (ps : List (Profile F)) :
    (integrationEntries ps).map (·.2.rank) = List.range ps.length := by
  rw [integrationEntries, List.map_map, List.range_eq_range', ← List.zipIdx_map_snd 0 ps]
  rfl

/-- no two integrations have one rank, so there is one order by rank -/
theorem byRank_integrationsOf {ps : List (Profile F)} (hids : (ps.map (·.moduleId)).Nodup) :
    byRank (integrationsOf ps) = integrationEntries ps := by
  have hnames : ((integrationEntries ps).map (·.1)).Nodup := by
    rwa [map_integrationEntries fun _ _ => rfl]
  have hperm : (byRank (integrationsOf ps)).Perm (integrationEntries ps) :=
    (byRank_perm _).trans (Keyed.perm_ofList hnames)
  have hranks : ((integrationEntries ps).map (·.2.rank)).Pairwise (· < ·) := by
    rw [ranks_integrationEntries]
    exact List.pairwise_lt_range
  have hnodup : ((integrationEntries ps).map (·.2.rank)).Nodup := hranks.imp Nat.ne_of_lt
  rw [List.pairwise_map] at hranks
  refine List.Perm.eq_of_pairwise (fun a b ha hb hab hba => ?_) (byRank_ascending _)
    (hranks.imp Nat.le_of_lt) hperm
  exact List.inj_on_of_nodup_map hnodup (hperm.mem_iff.1 ha) hb (Nat.le_antisymm hab hba)

end

/-! ### Enhanced properties -/

section

variable {F : Type} [Scalar F] {ps : List (Profile F)}

theorem mem_keys_enhancedOf {intensity : F} {id : String} :
    id ∈ (enhancedOf intensity ps).keys ↔
      id ∈ (ps.filter (fun p => p.algorithm.isExpressive)).map (·.moduleId) := by
  rw [enhancedOf, Keyed.mem_keys_ofList, List.map_map]
  rfl

theorem get?_enhancedOf (hids : (ps.map (·.moduleId)).Nodup) (intensity : F) {p : Profile F}
    (hp : p ∈ ps) (hexpressive : p.algorithm.isExpressive = true) :
    (enhancedOf intensity ps).get? p.moduleId = some (enhancedProperty intensity p) := by
  have hnames : (((ps.filter (fun p => p.algorithm.isExpressive)).map
      (fun p => (p.moduleId, enhancedProperty intensity p))).map (·.1)).Nodup := by
    rw [List.map_map]
    exact hids.sublist (List.filter_sublist.map Profile.moduleId)
  rw [Keyed.get?_eq_some_iff]
  refine (Keyed.perm_ofList hnames).mem_iff.2 (List.mem_map.2 ⟨p, ?_, rfl⟩)
  exact List.mem_filter.2 ⟨hp, hexpressive⟩

theorem isExpressive_iff {a : Algorithm} :
    a.isExpressive = true ↔ a = .creative ∨ a = .quantum := by
  cases a <;> simp [Algorithm.isExpressive]

/-- **Synthesis loses nothing.**  When the modules of a blueprint have different ids, every module
is integrated once, the ranks are `0` to `n - 1`, and by rank the integrations are the modules in
order; enhanced are the creative and quantum modules, each with what it adds. -/
theorem synthesize_keeps (b : Blueprint F) (hids : b.moduleIds.Nodup) :
    (synthesize b).integrations.size = b.modules.length ∧
    (byRank (synthesize b).integrations).map (·.2.rank) = List.range b.modules.length ∧
    (byRank (synthesize b).integrations).map (fun e => (e.1, e.2.specialization, e.2.algorithm,
        e.2.weight, e.2.behavioral, e.2.technical)) =
      b.modules.map (fun p => (p.moduleId, p.specialization, p.algorithm,
        p.weight, p.behavioral, p.technical)) ∧
    (∀ id, id ∈ (synthesize b).enhanced.keys ↔ ∃ p ∈ b.modules, p.moduleId = id ∧
      (p.algorithm = .creative ∨ p.algorithm = .quantum)) ∧
    ∀ p ∈ b.modules, p.algorithm = .creative ∨ p.algorithm = .quantum →
      ∃ v, (synthesize b).enhanced.get? p.moduleId = some v ∧ v.algorithm = p.algorithm ∧
        v.aesthetic = (p.creative.get? "aesthetic").getD 0.0 ∧
        v.innovation = (p.creative.get? "innovation").getD 0.0 := by
  have hbyRank : byRank (synthesize b).integrations = integrationEntries b.modules :=
    byRank_integrationsOf hids
  refine ⟨?_, ?_, ?_, fun id => ?_, fun p hp halgorithm => ?_⟩
  · have hlength := (byRank_perm (synthesize b).integrations).length_eq
    rw [hbyRank, integrationEntries, List.length_map, List.length_zipIdx] at hlength
    exact hlength.symm
  · rw [hbyRank, ranks_integrationEntries]
  · rw [hbyRank]
    exact map_integrationEntries (fun _ _ => rfl) b.modules
  · rw [show (synthesize b).enhanced = enhancedOf b.intensity b.modules from rfl,
      mem_keys_enhancedOf, List.mem_map]
    simp only [List.mem_filter, isExpressive_iff, and_assoc, and_comm (a := _ = id)]
  · exact ⟨_, get?_enhancedOf hids b.intensity hp (isExpressive_iff.2 halgorithm), rfl, rfl, rfl⟩

end

/-- three modules whose names ascend against their ranks -/
def scrambled : Blueprint Float :=
  { loneBlueprint with
    modules := [
      ⟨"waves", .motion, 0.9, 0.75, .ofList [("aesthetic", 0.25), ("innovation", 0.5)], .empty,
        .empty, .quantum⟩,
      ⟨"shader_library", .visual, 0.7, 0.5, .ofList [("aesthetic", 1.0)], .empty,
        .ofList [("performance", 0.25)], .technical⟩,
      ⟨"echo: near", .harmony, 0.7, 0.25, .ofList [("innovation", 0.125)], .empty, .empty,
        .creative⟩] }

theorem synthesize_keeps_scrambled : scrambled.moduleIds.Nodup ∧
    (byRank (synthesize scrambled).integrations).map (·.2.rank) = [0, 1, 2] ∧
    "shader_library" ∉ (synthesize scrambled).enhanced.keys ∧
    ∃ v, (synthesize scrambled).enhanced.get? "echo: near" = some v ∧ v.algorithm = .creative ∧
      v.aesthetic = 0.0 ∧ v.innovation = 0.125 := by
  have hids : scrambled.moduleIds.Nodup := by decide
  obtain ⟨-, hranks, -, hkeys, henhanced⟩ := synthesize_keeps scrambled hids
  refine ⟨hids, hranks, fun h => ?_, ?_⟩
  · obtain ⟨p, hp, hid, halgorithm⟩ := (hkeys _).1 h
    revert p
    decide
  · obtain ⟨v, hget, halgorithm, haesthetic, hinnovation⟩ :=
      henhanced (scrambled.modules[2]) (by decide) (Or.inl rfl)
    exact ⟨v, hget, halgorithm, haesthetic, hinnovation⟩

end EffectFusion
