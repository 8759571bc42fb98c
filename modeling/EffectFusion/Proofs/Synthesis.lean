import EffectFusion.Proofs.Config
import EffectFusion.Proofs.Keyed
import EffectFusion.Proofs.Number.Scores
import EffectFusion.Essence.Extract
import EffectFusion.Template

/-!
# A fused essence can be written

A script has no form for a number that is not finite.  The metrics of a fused essence are scores
and so finite whatever they are made from; all other numbers come from the blueprint.  `Writable`
says of a blueprint that those are finite.  Blueprints of sound modules and policies are writable,
however large the options.

* `isFinite_numbers`    every number of the fused essence of a writable blueprint is finite;
* `below_unitScores`    the scores of an essence;
* `writable_profile`    profiles of sound modules;
* `writable_build`      blueprints of sound modules and a sound policy.
-/

namespace EffectFusion

open Number Scalar

/-! ### Writable blueprints -/

structure Essence.Writable (e : Essence Float) : Prop where
  scores : ∀ n ∈ e.unitScores, Scalar.isFinite n.2 = true
  fps : Scalar.isFinite e.technical.performance.fps = true

structure Profile.Writable (p : Profile Float) : Prop where
  weight : Scalar.isFinite p.weight = true
  creative : ∀ e ∈ p.creative.entries, Scalar.isFinite e.2 = true
  behavioral : ∀ e ∈ p.behavioral.entries, Scalar.isFinite e.2 = true
  technical : ∀ e ∈ p.technical.entries, Scalar.isFinite e.2 = true

/-- the numbers that the fused essence takes over are finite -/
structure Blueprint.Writable (b : Blueprint Float) : Prop where
  essence : b.essence.Writable
  modules : ∀ p ∈ b.modules, p.Writable
  intensity : Scalar.isFinite b.intensity = true

/-! ### The fused essence -/

theorem isFinite_score (v : Float) : Scalar.isFinite (score v) = true :=
  isFinite_of_below (below_score v)

theorem isFinite_amountOf {m : Keyed Float} (h : ∀ e ∈ m.entries, Scalar.isFinite e.2 = true)
    (name : String) : Scalar.isFinite (amountOf m name) = true := by
  unfold amountOf
  cases hget : m.get? name with
  | none => exact isFinite_of_below (below_zero (k := 0))
  | some v => exact h (name, v) (Keyed.mem_entries_of_get? hget)

theorem isFinite_named (b : Blueprint Float) :
    ∀ n ∈ (evolutionOf b).named, Scalar.isFinite n.2 = true := by
  simp only [Evolution.named, evolutionOf, List.forall_mem_cons, isFinite_score, true_and,
    List.not_mem_nil, false_implies, implies_true]

theorem isFinite_propertyNumbers {p : Profile Float} (h : p.Writable) (intensity : Float) :
    ∀ n ∈ Template.propertyNumbers (p.moduleId, enhancedProperty intensity p),
      Scalar.isFinite n.2 = true := by
  simp only [Template.propertyNumbers, enhancedProperty, List.forall_mem_cons, isFinite_score,
    isFinite_amountOf h.creative, true_and, List.not_mem_nil, false_implies, implies_true]

theorem isFinite_integrationNumbers {p : Profile Float} (h : p.Writable) (rank : Nat) :
    ∀ n ∈ Template.integrationNumbers (p.moduleId, integration rank p),
      Scalar.isFinite n.2 = true := by
  intro n hn
  rcases List.mem_cons.1 hn with rfl | hn
  · exact h.weight
  · obtain ⟨e, he, rfl⟩ := List.mem_map.1 hn
    rcases List.mem_append.1 he with he | he
    · exact h.behavioral e he
    · exact h.technical e he

theorem isFinite_numbers {b : Blueprint Float} (h : b.Writable) :
    ∀ n ∈ Template.numbers (synthesize b), Scalar.isFinite n.2 = true := by
  intro n hn
  simp only [Template.numbers, List.mem_append, List.mem_cons, List.not_mem_nil, or_false,
    or_assoc] at hn
  rcases hn with hn | rfl | rfl | hn | hn | hn
  · exact h.essence.scores n hn
  · exact h.essence.fps
  · exact h.intensity
  · exact isFinite_named b n hn
  · obtain ⟨e, he, hn⟩ := List.mem_flatMap.1 hn
    obtain ⟨p, hp, rfl⟩ := List.mem_map.1 (Keyed.mem_entries_ofList he)
    exact isFinite_propertyNumbers (h.modules p (List.mem_of_mem_filter hp)) b.intensity n hn
  · obtain ⟨e, he, hn⟩ := List.mem_flatMap.1 hn
    obtain ⟨p, hp, rfl⟩ := List.mem_map.1 (Keyed.mem_entries_ofList he)
    exact isFinite_integrationNumbers (h.modules p.1 (List.fst_mem_of_mem_zipIdx hp)) p.2 n hn

/-! ### Essences -/

theorem below_unitScores (source : List Char) :
    ∀ n ∈ (Essence.extract source : Essence Float).unitScores, Below 96 n.2 := by
  simp only [Essence.unitScores, Essence.extract, Essence.energyOf, Essence.complexityOf,
    Essence.innovationOf, Essence.optimizationOf, List.forall_mem_cons, below_score, true_and,
    List.not_mem_nil, false_implies, implies_true]

theorem writable_extract (source : List Char) : (Essence.extract source : Essence Float).Writable where
  scores := fun n hn => isFinite_of_below (below_unitScores source n hn)
  fps := by
    have h30 : Below 7 30.0 := ⟨by decide, by decide⟩
    have h120 : Below 7 120.0 := ⟨by decide, by decide⟩
    exact isFinite_of_below (below_clamp h30 h120 _)

/-! ### Profiles -/

theorem isFinite_product {x y : Float} (hx : Below 96 x) (hy : Below 96 y) :
    Scalar.isFinite (round4 (x * y)) = true :=
  isFinite_of_below (below_round4 (below_mul hx hy (by decide) (by decide)) (by decide) (by decide))

theorem isFinite_amounts {es : List (String × Float)}
    (h : ∀ e ∈ es, Scalar.isFinite (round4 e.2) = true) :
    ∀ e ∈ (amounts es).entries, Scalar.isFinite e.2 = true := by
  intro e he
  obtain ⟨f, hf, rfl⟩ := List.mem_map.1 (Keyed.mem_entries_ofList he)
  exact h f hf

/-- a sound module has a writable profile for every essence with scores of moderate size -/
theorem writable_profile {e : Essence Float} {m : Enhancement Float}
    (he : ∀ n ∈ e.unitScores, Below 96 n.2) (hm : m.defect? = none) : (profile e m).Writable := by
  simp only [Essence.unitScores, List.forall_mem_cons] at he
  obtain ⟨henergy, -, hinnovation, hoptimization, hflexibility, -⟩ := he
  obtain ⟨-, -, hcreative, htechnical⟩ := m.defect?_eq_none_iff.1 hm
  have hcreative := (below_of_isUnit hcreative).mono (show (1 : Int) ≤ 96 by decide)
  have htechnical := (below_of_isUnit htechnical).mono (show (1 : Int) ≤ 96 by decide)
  have hweight : Below 96 (profile e m).weight := below_score _
  refine ⟨isFinite_of_below hweight, isFinite_amounts ?_, isFinite_amounts ?_, isFinite_amounts ?_⟩
  · simp only [List.forall_mem_cons]
    exact ⟨isFinite_product hcreative hweight, isFinite_product hcreative hinnovation,
      isFinite_product hcreative henergy, fun _ h => by cases h⟩
  · simp only [List.forall_mem_cons]
    exact ⟨isFinite_product hweight hflexibility, isFinite_product hweight henergy,
      fun _ h => by cases h⟩
  · simp only [List.forall_mem_cons]
    exact ⟨isFinite_product htechnical hoptimization, isFinite_product htechnical hweight,
      fun _ h => by cases h⟩

theorem writable_build {modules : List (Enhancement Float)} {policy : LevelPolicy Float}
    (hmodules : ∀ m ∈ modules, m.defect? = none) (hpolicy : policy.defect? = none)
    (source : List Char) (options : Options Float) :
    (Blueprint.build (Essence.extract source) (analyze (Essence.extract source) modules) policy
      options).Writable where
  essence := writable_extract source
  modules := by
    intro p hp
    obtain ⟨m, hm, rfl⟩ := List.mem_map.1 ((analyze_perm _ _).mem_iff.1 hp)
    exact writable_profile (below_unitScores source) (hmodules m hm)
  intensity := isFinite_of_below (below_of_isUnit (policy.defect?_eq_none_iff.1 hpolicy).1)

end EffectFusion
