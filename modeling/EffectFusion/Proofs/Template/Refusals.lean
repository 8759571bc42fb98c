import EffectFusion.Proofs.Json.Nulls
import EffectFusion.Proofs.Template.Members

/-!
# What has no script

A fused essence is refused when one of its numbers is not finite, and the numbers are listed by
hand.  The data of a script is written by another function, which writes `null` for such a number.
`FusedEssence.Finite` says of every number where it stands that it is finite; the list is complete
in that sense, and so is what is written.

* `finite_iff_numbers`         the list holds every number;
* `nullFree_payloads`          data with finite numbers only is free of `null`;
* `generate_iff_finite`        what has a script, and what is said of the rest.
-/

namespace EffectFusion

/-! ### Finite essences -/

structure Essence.Finite (e : Essence Float) : Prop where
  energy : e.dna.energy.isFinite = true
  complexity : e.dna.complexity.isFinite = true
  innovation : e.dna.innovation.isFinite = true
  fps : e.technical.performance.fps.isFinite = true
  optimization : e.technical.optimization.isFinite = true
  flexibility : e.fusion.flexibility.isFinite = true
  receptivity : e.fusion.receptivity.isFinite = true

structure EnhancedProperty.Finite (p : EnhancedProperty Float) : Prop where
  intensity : p.intensity.isFinite = true
  aesthetic : p.aesthetic.isFinite = true
  innovation : p.innovation.isFinite = true

structure Integration.Finite (m : Integration Float) : Prop where
  weight : m.weight.isFinite = true
  behavioral : ∀ a ∈ m.behavioral.entries, a.2.isFinite = true
  technical : ∀ a ∈ m.technical.entries, a.2.isFinite = true

structure Evolution.Finite (e : Evolution Float) : Prop where
  aesthetic : e.aesthetic.isFinite = true
  behavioral : e.behavioral.isFinite = true
  innovation : e.innovation.isFinite = true
  harmony : e.harmony.isFinite = true
  coherence : e.coherence.isFinite = true

/-- every number of a fused essence is finite -/
structure FusedEssence.Finite (f : FusedEssence Float) : Prop where
  essence : f.essence.Finite
  intensity : f.intensity.isFinite = true
  enhanced : ∀ e ∈ f.enhanced.entries, e.2.Finite
  integrations : ∀ e ∈ f.integrations.entries, e.2.Finite
  evolution : f.evolution.Finite

namespace Template

open Json Script

/-! ### The list of numbers -/

theorem finite_iff_scores (e : Essence Float) :
    e.Finite ↔ (∀ n ∈ e.unitScores, n.2.isFinite = true) ∧
      e.technical.performance.fps.isFinite = true := by
  simp only [Essence.unitScores, List.forall_mem_cons, List.not_mem_nil, false_implies,
    implies_true, and_true]
  constructor
  · exact fun h => ⟨⟨h.energy, h.complexity, h.innovation, h.optimization, h.flexibility,
      h.receptivity⟩, h.fps⟩
  · rintro ⟨⟨h1, h2, h3, h4, h5, h6⟩, h7⟩
    exact ⟨h1, h2, h3, h7, h4, h5, h6⟩

theorem finite_iff_named (e : Evolution Float) :
    e.Finite ↔ ∀ n ∈ e.named, n.2.isFinite = true := by
  simp only [Evolution.named, List.forall_mem_cons, List.not_mem_nil, false_implies,
    implies_true, and_true]
  constructor
  · exact fun h => ⟨h.aesthetic, h.behavioral, h.innovation, h.harmony, h.coherence⟩
  · rintro ⟨h1, h2, h3, h4, h5⟩
    exact ⟨h1, h2, h3, h4, h5⟩

theorem finite_iff_propertyNumbers (e : String × EnhancedProperty Float) :
    e.2.Finite ↔ ∀ n ∈ propertyNumbers e, n.2.isFinite = true := by
  simp only [propertyNumbers, List.forall_mem_cons, List.not_mem_nil, false_implies,
    implies_true, and_true]
  constructor
  · exact fun h => ⟨h.intensity, h.aesthetic, h.innovation⟩
  · rintro ⟨h1, h2, h3⟩
    exact ⟨h1, h2, h3⟩

theorem finite_iff_integrationNumbers (e : String × Integration Float) :
    e.2.Finite ↔ ∀ n ∈ integrationNumbers e, n.2.isFinite = true := by
  rw [integrationNumbers, List.forall_mem_cons, List.forall_mem_map, List.forall_mem_append]
  constructor
  · exact fun h => ⟨h.weight, h.behavioral, h.technical⟩
  · rintro ⟨h1, h2, h3⟩
    exact ⟨h1, h2, h3⟩

/-- the list holds every number -/
theorem finite_iff_numbers (f : FusedEssence Float) :
    f.Finite ↔ ∀ n ∈ numbers f, n.2.isFinite = true := by
  simp only [numbers, List.forall_mem_append, List.forall_mem_cons, List.not_mem_nil,
    false_implies, implies_true, and_true, List.forall_mem_flatMap, ← finite_iff_named,
    ← finite_iff_propertyNumbers, ← finite_iff_integrationNumbers]
  constructor
  · intro h
    obtain ⟨hscores, hfps⟩ := (finite_iff_scores f.essence).1 h.essence
    exact ⟨⟨⟨⟨hscores, hfps, h.intensity⟩, h.evolution⟩, h.enhanced⟩, h.integrations⟩
  · rintro ⟨⟨⟨⟨hscores, hfps, hintensity⟩, hevolution⟩, henhanced⟩, hintegrations⟩
    exact ⟨(finite_iff_scores f.essence).2 ⟨hscores, hfps⟩, hintensity, henhanced, hintegrations,
      hevolution⟩

/-! ### What is written -/

theorem nullFree_float (x : Float) : NullFree (toJson x) ↔ x.isFinite = true := nullFree_real x

theorem nullFree_features (m : Keyed Bool) : NullFree (toJson m) :=
  (nullFree_keyed m).2 fun e _ => nullFree_bool e.2

theorem nullFree_amounts (m : Keyed Float) :
    NullFree (toJson m) ↔ ∀ a ∈ m.entries, a.2.isFinite = true :=
  (nullFree_keyed m).trans (forall₂_congr fun a _ => nullFree_real a.2)

theorem nullFree_core (c : CoreBehavior) : NullFree (toJson c) := by
  refine (nullFree_fields _).2 ?_
  simp only [List.forall_mem_cons, nullFree_tag, nullFree_tagSet, nullFree_features,
    List.not_mem_nil, false_implies, implies_true, and_true]

theorem nullFree_dna (d : CreativeDna Float) : NullFree (toJson d) ↔
    d.energy.isFinite = true ∧ d.complexity.isFinite = true ∧ d.innovation.isFinite = true := by
  refine (nullFree_fields _).trans ?_
  simp only [List.forall_mem_cons, nullFree_tag, nullFree_float, List.not_mem_nil, false_implies,
    implies_true, and_true]

theorem nullFree_performance (p : Performance Float) :
    NullFree (toJson p) ↔ p.fps.isFinite = true := by
  refine (nullFree_fields _).trans ?_
  simp only [List.forall_mem_cons, nullFree_tag, nullFree_float, List.not_mem_nil, false_implies,
    implies_true, and_true]

theorem nullFree_technical (t : TechnicalAspects Float) : NullFree (toJson t) ↔
    t.performance.fps.isFinite = true ∧ t.optimization.isFinite = true := by
  refine (nullFree_fields _).trans ?_
  simp only [List.forall_mem_cons, nullFree_performance, nullFree_tagSet, nullFree_float, true_and,
    List.not_mem_nil, false_implies, implies_true, and_true]

theorem nullFree_receptivity (r : Receptivity Float) : NullFree (toJson r) ↔
    r.flexibility.isFinite = true ∧ r.receptivity.isFinite = true := by
  refine (nullFree_fields _).trans ?_
  simp only [List.forall_mem_cons, nullFree_float, List.not_mem_nil, false_implies, implies_true,
    and_true]

theorem nullFree_essence (e : Essence Float) : NullFree (toJson e) ↔ e.Finite := by
  refine (nullFree_fields _).trans ?_
  simp only [List.forall_mem_cons, nullFree_core, nullFree_dna, nullFree_technical,
    nullFree_receptivity, true_and, List.not_mem_nil, false_implies, implies_true, and_true]
  constructor
  · rintro ⟨⟨h1, h2, h3⟩, ⟨h4, h5⟩, h6, h7⟩
    exact ⟨h1, h2, h3, h4, h5, h6, h7⟩
  · exact fun h => ⟨⟨h.energy, h.complexity, h.innovation⟩, ⟨h.fps, h.optimization⟩,
      h.flexibility, h.receptivity⟩

theorem nullFree_property (p : EnhancedProperty Float) : NullFree (toJson p) ↔ p.Finite := by
  refine (nullFree_fields _).trans ?_
  simp only [List.forall_mem_cons, nullFree_tag, nullFree_float, true_and, List.not_mem_nil,
    false_implies, implies_true, and_true]
  constructor
  · rintro ⟨h1, h2, h3⟩
    exact ⟨h1, h2, h3⟩
  · exact fun h => ⟨h.intensity, h.aesthetic, h.innovation⟩

theorem nullFree_integration (m : Integration Float) : NullFree (toJson m) ↔ m.Finite := by
  have hrank : NullFree (toJson m.rank) := nullFree_whole m.rank
  refine (nullFree_fields _).trans ?_
  simp only [List.forall_mem_cons, hrank, nullFree_tag, nullFree_float, nullFree_amounts, true_and,
    List.not_mem_nil, false_implies, implies_true, and_true]
  constructor
  · rintro ⟨h1, h2, h3⟩
    exact ⟨h1, h2, h3⟩
  · exact fun h => ⟨h.weight, h.behavioral, h.technical⟩

theorem nullFree_evolution (e : Evolution Float) : NullFree (toJson e) ↔ e.Finite := by
  refine (nullFree_fields _).trans ?_
  rw [List.forall_mem_map, finite_iff_named]
  exact forall₂_congr fun n _ => nullFree_float n.2

/-- what is written of a fused essence is free of `null` exactly when the numbers in it are finite;
the intensity is none of them -/
theorem nullFree_payloads (f : FusedEssence Float) : (∀ p ∈ payloads f, NullFree p.2) ↔
    f.essence.Finite ∧ (∀ e ∈ f.enhanced.entries, e.2.Finite) ∧
      (∀ e ∈ f.integrations.entries, e.2.Finite) ∧ f.evolution.Finite := by
  simp only [payloads, List.forall_mem_cons, nullFree_essence, nullFree_keyed, nullFree_property,
    nullFree_integration, nullFree_evolution, List.not_mem_nil, false_implies, implies_true,
    and_true]

/-! ### Refusals -/

/-- the number that is named is one that is not finite -/
theorem generate_of_not_finite {f : FusedEssence Float} (h : ¬ f.Finite) :
    ∃ n ∈ numbers f, n.2.isFinite = false ∧
      generate f = .error (.reconstruction (.notFinite n.1)) := by
  cases hfind : (numbers f).find? (fun n => !Scalar.isFinite n.2) with
  | none =>
    refine absurd ((finite_iff_numbers f).2 fun n hn => ?_) h
    have hfinite : Scalar.isFinite n.2 = true := by simpa using List.find?_eq_none.1 hfind n hn
    exact hfinite
  | some n =>
    have hn : Scalar.isFinite n.2 = false := by simpa using List.find?_some hfind
    refine ⟨n, List.mem_of_find?_eq_some hfind, hn, ?_⟩
    rw [generate, firstNotFinite?, hfind]
    rfl

/-- **What has a script.**  Exactly the fused essences whose numbers are all finite; a refusal names
a number that is not.  A script assigns one value to each of its four members for data, and that
value is free of `null`. -/
theorem generate_iff_finite (f : FusedEssence Float) :
    ((∃ g, generate f = .ok g) ↔ f.Finite) ∧
      (¬ f.Finite → ∃ n ∈ numbers f, n.2.isFinite = false ∧
        generate f = .error (.reconstruction (.notFinite n.1))) ∧
      ∀ g, generate f = .ok g → ∀ m ∈ payloadMembers, ∃ v, (m, v) ∈ payloads f ∧
        valuesOf m (significant (lex g)) = [Json.tokens v] ∧ NullFree v := by
  have hfinite : ∀ g, generate f = .ok g → f.Finite := by
    intro g hg
    by_contra hnot
    obtain ⟨n, -, -, herror⟩ := generate_of_not_finite hnot
    rw [hg] at herror
    cases herror
  refine ⟨⟨fun ⟨g, hg⟩ => hfinite g hg, fun h => ?_⟩, generate_of_not_finite, fun g hg m hm => ?_⟩
  · exact ⟨_, generate_eq_ok ((finite_iff_numbers f).1 h)⟩
  · have h := hfinite g hg
    have hmembers : payloadMembers = (payloads f).map (·.1) := rfl
    rw [hmembers] at hm
    obtain ⟨p, hp, rfl⟩ := List.mem_map.1 hm
    have hvalues := valuesOf_written f hp
    rw [← eq_of_generate hg] at hvalues
    exact ⟨p.2, hp, hvalues,
      (nullFree_payloads f).2 ⟨h.essence, h.enhanced, h.integrations, h.evolution⟩ p hp⟩

/-- a number deep inside of the sample that is none -/
def flawed : FusedEssence Float :=
  { sample with integrations := Keyed.ofList [
      ("/* id */", ⟨0, .performance, .creative, 0.5, Keyed.empty, Keyed.ofList [("null", 0.0 / 0.0)]⟩)] }

theorem generate_iff_finite_sample :
    (∃ g, generate sample = .ok g ∧ ∀ m ∈ payloadMembers, ∃ v, (m, v) ∈ payloads sample ∧
      valuesOf m (significant (lex g)) = [Json.tokens v] ∧ NullFree v) ∧
      generate flawed = .error (.reconstruction (.notFinite "/* id */.null")) := by
  have hsample : sample.Finite := (finite_iff_numbers sample).2 (by decide +kernel)
  have hflawed : ¬ flawed.Finite := by
    rw [finite_iff_numbers]
    decide +kernel
  have hnamed : ∀ n ∈ numbers flawed, n.2.isFinite = false → n.1 = "/* id */.null" := by
    decide +kernel
  obtain ⟨hiff, -, hfree⟩ := generate_iff_finite sample
  obtain ⟨g, hg⟩ := hiff.2 hsample
  obtain ⟨n, hn, hnot, herror⟩ := (generate_iff_finite flawed).2.1 hflawed
  rw [hnamed n hn hnot] at herror
  exact ⟨⟨g, hg, hfree g hg⟩, herror⟩

end Template

end EffectFusion
