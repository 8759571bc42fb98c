import EffectFusion.Proofs.Bounds
import EffectFusion.Proofs.Moderation
import EffectFusion.Proofs.Number.Monotone
import EffectFusion.Proofs.Number.Signs
import EffectFusion.Proofs.Ordering

/-!
# What an analysis is

An analysis is the profiles of its modules with the heaviest first, equally heavy ones as they were
given.  `Ranking` says so with `≤` alone, while profiles are sorted by the total order of bit
patterns, which parts the two zeros; that both are the same for weights needs that no weight is
`-0.0`.  Over exact numbers the weight is monotone in both weights of the module.

* `ranking_mergeSort`   the sort, where places follow the order of the weights;
* `hasPlus_weight`      the sign of a weight;
* `weight_mono`         a module that is nowhere weaker has no smaller weight;
* `analyze_ranks`       both, for analyses.
-/

namespace EffectFusion

open Number

open Scalar hiding atMost

/-! ### Rankings -/

section

variable {F : Type} [Scalar F]

/-- neither profile is heavier -/
def Profile.sameWeight (p q : Profile F) : Bool :=
  Scalar.atMost p.weight q.weight && Scalar.atMost q.weight p.weight

/-- the profiles `ps` with the heaviest first, where equally heavy ones stand as in `ps` -/
structure Ranking (ps qs : List (Profile F)) : Prop where
  perm : qs.Perm ps
  descending : qs.Pairwise fun p q => Scalar.atMost q.weight p.weight = true
  stable : ∀ r ∈ ps, qs.filter r.sameWeight = ps.filter r.sameWeight

theorem Ranking.atMost_of_behind {ps qs : List (Profile F)} (h : Ranking ps qs) {p q : Profile F}
    (hpq : [p, q].Sublist qs) : Scalar.atMost q.weight p.weight = true := by
  have hpair := h.descending.sublist hpq
  rwa [List.pairwise_pair] at hpair

/-- where places follow the order of the weights, the sort finds the ranking -/
theorem ranking_mergeSort {ps : List (Profile F)} (h : ∀ p ∈ ps, ∀ q ∈ ps,
      Scalar.atMost p.weight q.weight = true ↔ place p.weight ≤ place q.weight) :
    Ranking ps (ps.mergeSort (fun a b => a.mayPrecede b)) where
  perm := List.mergeSort_perm _ _
  descending := by
    have hpairs := List.pairwise_mergeSort (trans_of_rank Profile.mayPrecede_iff)
      (total_of_rank Profile.mayPrecede_iff) ps
    refine hpairs.imp_of_mem fun {p q} hp hq hpq => ?_
    rw [h q (List.mem_mergeSort.1 hq) p (List.mem_mergeSort.1 hp)]
    exact (Profile.mayPrecede_iff p q).1 hpq
  stable r hr := by
    refine filter_mergeSort_of_tied (trans_of_rank Profile.mayPrecede_iff)
      (total_of_rank Profile.mayPrecede_iff) fun p hp hrp q hq hrq => ?_
    rw [Profile.sameWeight, Bool.and_eq_true, h r hr p hp, h p hp r hr] at hrp
    rw [Profile.sameWeight, Bool.and_eq_true, h r hr q hq, h q hq r hr] at hrq
    rw [Profile.mayPrecede_iff]
    exact hrq.2.trans hrp.1

end

/-! ### Weights -/

section

variable {e : Essence Float} {m : Enhancement Float}

theorem notNegative_sum {vs : List Float} (h : ∀ v ∈ vs, NotNegative v) : NotNegative (sum vs) := by
  have hfold : ∀ x, NotNegative x → NotNegative (vs.foldl (· + ·) x) := by
    induction vs with
    | nil => exact fun x hx => hx
    | cons v vs ih =>
      obtain ⟨hv, hvs⟩ := List.forall_mem_cons.1 h
      exact fun x hx => ih hvs (x + v) (notNegative_add hx hv)
  exact hfold (-0.0) trivial

theorem hasPlus_compatibility (e : Essence Float) (m : Enhancement Float) :
    HasPlus (compatibility e m) := by
  have hamounts : ∀ b ∈ (bonuses : List (Bonus Float)), NotNegative b.amount := by
    simp only [bonuses, List.forall_mem_cons, List.not_mem_nil, false_implies, implies_true,
      and_true]
    exact ⟨rfl, rfl, rfl, rfl, rfl, rfl⟩
  have hbase : HasPlus 0.7 := rfl
  refine hasPlus_clampUnit (hasPlus_add hbase (notNegative_sum fun v hv => ?_))
  obtain ⟨b, hb, rfl⟩ := List.mem_map.1 hv
  exact hamounts b (List.mem_of_mem_filter hb)

/-- the compatibility brings a sign that no product takes away -/
theorem hasPlus_weight (he : ∀ n ∈ e.unitScores, isUnit n.2 = true) (hm : m.defect? = none) :
    HasPlus (profile e m).weight := by
  simp only [Essence.unitScores, List.forall_mem_cons] at he
  obtain ⟨-, -, hinnovation, hoptimization, -⟩ := he
  obtain ⟨-, -, hcreative, htechnical⟩ := m.defect?_eq_none_iff.1 hm
  have hhalf : HasPlus 0.5 := rfl
  have hthird : NotNegative 0.3 := rfl
  have hfifth : NotNegative 0.2 := rfl
  have hadded := hasPlus_add (hasPlus_mul (hasPlus_compatibility e m) hhalf)
    (notNegative_mul (notNegative_mul (notNegative_of_isUnit hcreative)
      (notNegative_of_isUnit hinnovation)) hthird)
  exact hasPlus_score (hasPlus_add hadded (notNegative_mul (notNegative_mul
    (notNegative_of_isUnit htechnical) (notNegative_of_isUnit hoptimization)) hfifth))

theorem number_weight (e : Essence Float) (m : Enhancement Float) :
    (profile e m).weight.isNaN = false :=
  number_of_isFinite (isFinite_of_below (below_score _))

theorem ranking_analyze {ms : List (Enhancement Float)}
    (he : ∀ n ∈ e.unitScores, isUnit n.2 = true) (hms : ∀ m ∈ ms, m.defect? = none) :
    Ranking (ms.map (profile e)) (analyze e ms) := by
  refine ranking_mergeSort fun p hp q hq => ?_
  obtain ⟨a, ha, rfl⟩ := List.mem_map.1 hp
  obtain ⟨b, hb, rfl⟩ := List.mem_map.1 hq
  have hle := orderPlace_le_iff (hasPlus_weight he (hms a ha)) (hasPlus_weight he (hms b hb))
    (number_weight e a) (number_weight e b)
  exact decide_eq_true_iff.trans hle.symm

end

/-! ### Weights over exact numbers -/

section

open Number.Extended

variable [Choices] {e : Essence Extended} {a b m : Enhancement Extended}

theorem isUnit_iff_within (v : Extended) : isUnit v = true ↔ v.Within 0 1 := by
  simp only [isUnit, Bool.and_eq_true]
  cases v with
  | value q =>
    rw [zero_eq, one_eq, atMost_value, atMost_value]
    exact ⟨fun h => ⟨h.1.2, h.2⟩, fun h => ⟨⟨rfl, h.1⟩, h.2⟩⟩
  | infinite s => exact iff_of_false (fun h => Bool.false_ne_true h.1.1) id
  | undefined => exact iff_of_false (fun h => Bool.false_ne_true h.1.1) id

omit [Choices] in
theorem value_of_within {v : Extended} {low high : ℚ} (h : v.Within low high) :
    ∃ q : ℚ, low ≤ q ∧ v = value q := by
  cases v with
  | value q => exact ⟨q, h.1, rfl⟩
  | infinite s => exact absurd h id
  | undefined => exact absurd h id

theorem weight_value {f c i t o : ℚ} (hfit : compatibility e m = value f)
    (hc : m.creative = value c) (hi : e.dna.innovation = value i) (ht : m.technical = value t)
    (ho : e.technical.optimization = value o) :
    (profile e m).weight = score (value (f * 0.5 + c * i * 0.3 + t * o * 0.2)) := by
  show score (compatibility e m * 0.5 + m.creative * e.dna.innovation * 0.3
    + m.technical * e.technical.optimization * 0.2) = _
  rw [hfit, hc, hi, ht, ho]
  rfl

/-- with the same specialization the bonuses are the same, and the rest grows with the weights -/
theorem weight_mono (he : ∀ n ∈ e.unitScores, isUnit n.2 = true) (ha : a.defect? = none)
    (hb : b.defect? = none) (hsame : a.specialization = b.specialization)
    (hcreative : Scalar.atMost b.creative a.creative = true)
    (htechnical : Scalar.atMost b.technical a.technical = true) :
    Scalar.atMost (profile e b).weight (profile e a).weight = true := by
  simp only [Essence.unitScores, List.forall_mem_cons] at he
  obtain ⟨-, -, hinnovation, hoptimization, -⟩ := he
  obtain ⟨-, -, hca, hta⟩ := a.defect?_eq_none_iff.1 ha
  obtain ⟨-, -, hcb, htb⟩ := b.defect?_eq_none_iff.1 hb
  rw [isUnit_iff_within] at hinnovation hoptimization hca hta hcb htb
  obtain ⟨i, hi, hinnovation⟩ := value_of_within hinnovation
  obtain ⟨o, ho, hoptimization⟩ := value_of_within hoptimization
  obtain ⟨ca, -, hca⟩ := value_of_within hca
  obtain ⟨ta, -, hta⟩ := value_of_within hta
  obtain ⟨cb, -, hcb⟩ := value_of_within hcb
  obtain ⟨tb, -, htb⟩ := value_of_within htb
  rw [hca, hcb, atMost_value] at hcreative
  rw [hta, htb, atMost_value] at htechnical
  have hfits : compatibility e b = compatibility e a := by
    unfold compatibility
    rw [hsame]
  obtain ⟨f, -, hfit⟩ := value_of_within
    (show (compatibility e a).Within 0 1 from within_clampUnit _)
  rw [weight_value (hfits.trans hfit) hcb hinnovation htb hoptimization,
    weight_value hfit hca hinnovation hta hoptimization]
  refine score_mono ?_
  gcongr

/-- weights are scores, so places of numbers with four decimal places are enough -/
theorem ranking_analyze_exact (hplaces : PlacesInOrder) (e : Essence Extended)
    (ms : List (Enhancement Extended)) : Ranking (ms.map (profile e)) (analyze e ms) := by
  refine ranking_mergeSort fun p hp q hq => ?_
  obtain ⟨a, -, rfl⟩ := List.mem_map.1 hp
  obtain ⟨b, -, rfl⟩ := List.mem_map.1 hq
  exact atMost_iff_place hplaces _ _

theorem eq_of_atMost {v w : Extended} (hvw : Scalar.atMost (score v) (score w) = true)
    (hwv : Scalar.atMost (score w) (score v) = true) : score v = score w := by
  obtain ⟨m, hm⟩ := score_eq v
  obtain ⟨n, hn⟩ := score_eq w
  rw [hm, hn, atMost_value] at hvw hwv
  rw [hm, hn, le_antisymm hvw hwv]

end

/-- **Analysis.**  Of sound modules and an essence with scores of the unit interval an analysis is
the one profile of each module with the heaviest first, equally heavy ones in the order of the
modules.  Over exact numbers a module that is nowhere weaker than one of its specialization has no
smaller weight; and when the places by which profiles are sorted follow the order of numbers, it
stands behind only where both weights are the same. -/
theorem analyze_ranks :
    (∀ (e : Essence Float) (ms : List (Enhancement Float)),
      (∀ n ∈ e.unitScores, isUnit n.2 = true) → (∀ m ∈ ms, m.defect? = none) →
      Ranking (ms.map (profile e)) (analyze e ms)) ∧
    ∀ [Choices] (e : Essence Extended) (a b : Enhancement Extended),
      (∀ n ∈ e.unitScores, isUnit n.2 = true) → a.defect? = none → b.defect? = none →
      a.specialization = b.specialization → Scalar.atMost b.creative a.creative = true →
      Scalar.atMost b.technical a.technical = true →
      Scalar.atMost (profile e b).weight (profile e a).weight = true ∧
      (Extended.PlacesInOrder → ∀ ms : List (Enhancement Extended),
        Ranking (ms.map (profile e)) (analyze e ms) ∧
        ([profile e b, profile e a].Sublist (analyze e ms) →
          (profile e b).weight = (profile e a).weight)) := by
  refine ⟨fun e ms he hms => ranking_analyze he hms, ?_⟩
  intro _ e a b he ha hb hsame hcreative htechnical
  have hweights := weight_mono he ha hb hsame hcreative htechnical
  refine ⟨hweights, fun hplaces ms => ?_⟩
  have hranking := ranking_analyze_exact hplaces e ms
  refine ⟨hranking, fun hbehind => ?_⟩
  exact eq_of_atMost hweights (hranking.atMost_of_behind hbehind)

/-- the places of `squareChoices` count ten-thousandths -/
theorem placesInOrder_square : Extended.PlacesInOrder := by
  have hplace : ∀ n : ℤ, Choices.place (.value (n / 10000)) = n := by
    intro n
    show ⌊(n / 10000 : ℚ) * 10000⌋ = n
    rw [div_mul_cancel₀ _ (by norm_num), Int.floor_intCast]
  intro m n h
  rw [hplace, hplace]
  exact h

/-- two modules of one weight and one that is heavier -/
def tied {F : Type} [Scalar F] : List (Enhancement F) := [
  Catalog.plain "palette" 1 0.5 0.25 .visual,
  Catalog.plain "grid" 1 0.5 0.25 .visual,
  Catalog.plain "shader" 2 0.75 0.25 .visual]

theorem analyze_ranks_tied :
    (∀ m ∈ (tied : List (Enhancement Float)), m.defect? = none) ∧
    Ranking (tied.map (profile loneBlueprint.essence)) (analyze loneBlueprint.essence tied) ∧
    let e : Essence Extended := Essence.extract "spawn()".toList
    Scalar.atMost (profile e tied[0]).weight (profile e tied[2]).weight = true ∧
      Ranking (tied.map (profile e)) (analyze e tied) := by
  have hscores : ∀ n ∈ loneBlueprint.essence.unitScores, isUnit n.2 = true := by decide +kernel
  have hmodules : ∀ m ∈ (tied : List (Enhancement Float)), m.defect? = none := by decide +kernel
  have hexact : ∀ n ∈ (Essence.extract "spawn()".toList : Essence Extended).unitScores,
      isUnit n.2 = true :=
    fun n hn => (isUnit_iff_within n.2).2 (within_unitScores _ n hn)
  obtain ⟨hranking, hmonotone⟩ := analyze_ranks
  obtain ⟨hweights, hplaced⟩ := hmonotone (Essence.extract "spawn()".toList) tied[2] tied[0] hexact
    (by decide +kernel) (by decide +kernel) rfl (by decide +kernel) (by decide +kernel)
  exact ⟨hmodules, hranking loneBlueprint.essence tied hscores hmodules, hweights,
    (hplaced placesInOrder_square tied).1⟩

end EffectFusion
