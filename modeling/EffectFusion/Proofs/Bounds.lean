import EffectFusion.Proofs.Drafts
import EffectFusion.Proofs.Number.Exact

/-!
# Bounded scores

Over exact numbers every score lies in its interval.  The metrics of a fused essence do so for
every blueprint, whatever numbers it holds, infinities and what is no number included; a blueprint
that was made from a source and moderated by the usual moderator holds only numbers of the unit
interval and expectations in per cent.

* `bounded_evolution`    the metrics of any fused essence;
* `bounded_extract`      the scores of an extracted essence;
* `innovation_le_cap`    what a strategy lets through;
* `bounded_clamped`      a clamped blueprint of an extracted essence;
* `scores_bounded`       fusing from a configuration.
-/

namespace EffectFusion

open Number Number.Extended

open Scalar hiding atMost

/-! ### Intervals -/

structure Essence.Bounded (e : Essence Extended) : Prop where
  energy : e.dna.energy.Within 0 1
  complexity : e.dna.complexity.Within 0 1
  innovation : e.dna.innovation.Within 0 1
  fps : e.technical.performance.fps.Within 30 120
  optimization : e.technical.optimization.Within 0 1
  flexibility : e.fusion.flexibility.Within 0 1
  receptivity : e.fusion.receptivity.Within 0 1

structure Profile.Bounded (p : Profile Extended) : Prop where
  weight : p.weight.Within 0 1
  compatibility : p.compatibility.Within 0 1
  creative : ∀ a ∈ p.creative.entries, a.2.Within 0 1
  behavioral : ∀ a ∈ p.behavioral.entries, a.2.Within 0 1
  technical : ∀ a ∈ p.technical.entries, a.2.Within 0 1

structure Projection.Bounded (x : Projection Extended) : Prop where
  visual : x.visual.Within 0 100
  performance : x.performance.Within 0 100
  creative : x.creative.Within 0 100
  behavioral : x.behavioral.Within 0 100

structure Evolution.Bounded (e : Evolution Extended) : Prop where
  aesthetic : e.aesthetic.Within 0 1
  behavioral : e.behavioral.Within 0 1
  innovation : e.innovation.Within 0 1
  harmony : e.harmony.Within 0 1
  coherence : e.coherence.Within 0 1

/-- all numbers of a blueprint but its intensity lie in their intervals -/
structure Blueprint.Bounded (b : Blueprint Extended) : Prop where
  essence : b.essence.Bounded
  modules : ∀ p ∈ b.modules, p.Bounded
  expected : b.expected.Bounded

section

variable [Choices]

/-! ### The fused essence -/

theorem bounded_evolution (b : Blueprint Extended) : (evolutionOf b).Bounded where
  aesthetic := within_score _
  behavioral := within_score _
  innovation := within_score _
  harmony := within_score _
  coherence := within_score _

theorem within_enhanced (b : Blueprint Extended) :
    ∀ e ∈ (synthesize b).enhanced.entries, e.2.intensity.Within 0 1 := by
  intro e he
  obtain ⟨p, -, rfl⟩ := List.mem_map.1 (Keyed.mem_entries_ofList he)
  exact within_score (p.weight * b.intensity)

/-- a cap has four places, so that rounding does not lead above it -/
theorem innovationCap_eq (s : Strategy) :
    ∃ n : ℤ, 0 ≤ n ∧ (innovationCap s : Extended) = value (n / 10000) := by
  have hlow : (0.7 : Extended) = value ((7000 : ℤ) / 10000) := congrArg value (by norm_num)
  have hhigh : (0.9 : Extended) = value ((9000 : ℤ) / 10000) := congrArg value (by norm_num)
  cases s with
  | revolutionary => exact ⟨9000, by norm_num, hhigh⟩
  | _ => exact ⟨7000, by norm_num, hlow⟩

theorem innovation_le_cap (b : Blueprint Extended) :
    Scalar.atMost (evolutionOf b).innovation (innovationCap b.strategy) = true := by
  obtain ⟨n, hn, hcap⟩ := innovationCap_eq b.strategy
  have h := within_score_smaller (b.expected.creative / 100.0) hn
  show Scalar.atMost (score (smaller (b.expected.creative / 100.0) (innovationCap b.strategy)))
    (innovationCap b.strategy) = true
  rw [hcap]
  exact atMost_of_within h

/-! ### Blueprints -/

theorem within_unitScores (source : List Char) :
    ∀ n ∈ (Essence.extract source : Essence Extended).unitScores, n.2.Within 0 1 := by
  simp only [Essence.unitScores, Essence.extract, Essence.energyOf, Essence.complexityOf,
    Essence.innovationOf, Essence.optimizationOf, List.forall_mem_cons, within_score, true_and,
    List.not_mem_nil, false_implies, implies_true]

theorem within_fps (source : List Char) : (Essence.fpsOf source : Extended).Within 30 120 := by
  have hlow : (30.0 : Extended) = value 30 := congrArg value (by norm_num)
  have hhigh : (120.0 : Extended) = value 120 := congrArg value (by norm_num)
  rw [Essence.fpsOf, hlow, hhigh]
  exact within_clamp (by norm_num) _

theorem bounded_extract (source : List Char) :
    (Essence.extract source : Essence Extended).Bounded := by
  have hscores := within_unitScores source
  simp only [Essence.unitScores, List.forall_mem_cons] at hscores
  obtain ⟨h1, h2, h3, h4, h5, h6, -⟩ := hscores
  exact ⟨h1, h2, h3, within_fps source, h4, h5, h6⟩

theorem hundred_eq : (100.0 : Extended) = value 100 := congrArg value (by norm_num)

theorem within_clampMap (m : Keyed Extended) :
    ∀ e ∈ (Moderator.clampMap m).entries, e.2.Within 0 1 := by
  intro e he
  obtain ⟨f, -, rfl⟩ := List.mem_map.1 he
  exact within_clampUnit f.2

theorem bounded_clampProfile (p : Profile Extended) : (Moderator.clampProfile p).Bounded where
  weight := within_clampUnit p.weight
  compatibility := within_clampUnit p.compatibility
  creative := within_clampMap p.creative
  behavioral := within_clampMap p.behavioral
  technical := within_clampMap p.technical

/-- clamping bounds all numbers but those of the essence, which moderation leaves alone -/
theorem bounded_clamped {b : Blueprint Extended} {source : List Char}
    (h : b.essence = Essence.extract source) : (Moderator.clamped 100.0 b).Bounded where
  essence := by
    show b.essence.Bounded
    rw [h]
    exact bounded_extract source
  modules := by
    intro p hp
    obtain ⟨q, -, rfl⟩ := List.mem_map.1 hp
    exact bounded_clampProfile q
  expected := by
    have hclamp : ∀ v : Extended, (clamp 0.0 100.0 v).Within 0 100 := by
      intro v
      rw [zero_eq, hundred_eq]
      exact within_clamp (by norm_num) v
    exact ⟨hclamp _, hclamp _, hclamp _, hclamp _⟩

theorem moderated_standard (b : Blueprint Extended) :
    moderated Moderator.standard b = .ok (Moderator.clamped 100.0 b) := by
  have hbound : Scalar.atMost (0.0 : Extended) 100.0 = true := by
    rw [zero_eq, hundred_eq]
    have hzero : Within 0 100 (value 0) := ⟨le_refl 0, by norm_num⟩
    exact atMost_of_within hzero
  exact moderated_of_tags (Moderator.clampTo_eq_ok hbound b) (Moderator.tags_clamped 100.0 b)

/-- **Bounded scores.**  Whatever a blueprint holds, the metrics of its fused essence and the
intensities of the enhanced properties lie in the unit interval, and the innovation is no larger
than the strategy lets through.  A studio of an accepted configuration makes a bounded blueprint of
every source at each of its levels, for all finite options. -/
theorem scores_bounded :
    (∀ b : Blueprint Extended,
      (synthesize b).evolution.Bounded ∧
      (∀ e ∈ (synthesize b).enhanced.entries, e.2.intensity.Within 0 1) ∧
      Scalar.atMost (synthesize b).evolution.innovation (innovationCap b.strategy) = true) ∧
    ∀ (c : Config Extended) (source : List Char) (level : UInt8) (options : Options Extended),
      c.check = .ok () → (∃ p ∈ c.levels, p.level = level) → options.Finite →
      ∃ catalog table b, c.parts = .ok (catalog, table) ∧
        draftBlueprint catalog table Moderator.standard source level options = .ok b ∧
        b.Bounded := by
  refine ⟨fun b => ⟨bounded_evolution b, within_enhanced b, innovation_le_cap b⟩, ?_⟩
  intro c source level options hcheck hlevel hfinite
  obtain ⟨catalog, table, hparts⟩ := Config.check_eq_ok_iff.1 hcheck
  obtain ⟨-, hperm, -⟩ := Config.sound_of_parts hparts
  obtain ⟨p, hp, hlevel⟩ := hlevel
  rcases table.get_cases level with ⟨q, -, -, hget⟩ | ⟨hnone, -⟩
  · rcases options.check_cases with ⟨-, hoptions⟩ | ⟨hnot, -⟩
    · have hdraft : draftBlueprint catalog table Moderator.standard source level options = _ :=
        draftBlueprint_eq hget hoptions Moderator.standard source
      rw [moderated_standard] at hdraft
      exact ⟨catalog, table, _, hparts, hdraft, bounded_clamped rfl⟩
    · exact absurd hfinite hnot
  · exact absurd hlevel (hnone p (hperm.mem_iff.2 hp))

end

/-- roots of squares, and places that tell apart numbers with four decimal places -/
instance Number.squareChoices : Choices where
  root
    | value q => if q < 0 then undefined else value (mkRat q.num.toNat.sqrt q.den.sqrt)
    | infinite true => infinite true
    | _ => undefined
  place
    | value q => ⌊q * 10000⌋
    | infinite true => 10 ^ 400
    | infinite false => -10 ^ 400
    | undefined => 10 ^ 500
  text
    | value q => toString q
    | infinite true => "inf"
    | infinite false => "-inf"
    | undefined => "NaN"

def loneExact : Config Extended :=
  ⟨[Catalog.plain "color_theory" 1 0.7 0.3 .visual], [⟨1, .conservative, 0.3, 0.4, 0.6⟩]⟩

theorem scores_bounded_lone :
    loneExact.check = .ok () ∧
      ∃ catalog table b, loneExact.parts = .ok (catalog, table) ∧
        draftBlueprint catalog table Moderator.standard "spawn()".toList 1 .zero = .ok b ∧
        b.Bounded ∧ (synthesize b).evolution.Bounded := by
  have htable : PolicyTable.ofList loneExact.levels = .ok ⟨loneExact.levels⟩ := by
    simp only [PolicyTable.ofList, loneExact, List.mergeSort_singleton]
    decide +kernel
  have hcheck : loneExact.check = .ok () := by
    unfold Config.check Config.parts
    rw [htable]
    decide +kernel
  have hfinite : (Options.zero : Options Extended).Finite :=
    ⟨by decide +kernel, by decide +kernel, by decide +kernel⟩
  obtain ⟨hfused, hdrafts⟩ := scores_bounded
  obtain ⟨catalog, table, b, hparts, hdraft, hbounded⟩ :=
    hdrafts loneExact "spawn()".toList 1 .zero hcheck ⟨_, List.mem_cons_self, rfl⟩ hfinite
  exact ⟨hcheck, catalog, table, b, hparts, hdraft, hbounded, (hfused b).1⟩

end EffectFusion
