import EffectFusion.Proofs.Fusion
import EffectFusion.Proofs.Number.Order

/-!
# What clamping does to a blueprint

The moderator that clamps goes through every number of a blueprint but those of the essence.  What
it does to one number is said by `Brought`: the result lies in the interval, and a number that lay
in it is as it was.  `Profile.Brought` and `Blueprint.Brought` say the same of all numbers, field by
field and entry by entry, and that everything else is as it was.

No value is exempt.  What is no number becomes the lower end, and an infinity the end it lies
beyond; so a second pass finds all numbers in their intervals.  Comparing doubles is comparing their
rungs, and there clamping is monotone, which keeps modules in the order of their weights.

* `clamp_cases`          the three outcomes of clamping a double;
* `clamp_mono`           larger numbers are clamped to larger ones;
* `Moderator.brought_clamped`   every number of a blueprint;
* `Moderator.clampTo_brings`    the moderator, for every bound that is not negative.
-/

namespace EffectFusion

open Scalar

/-! ### One number -/

/-- `v'` is `v` brought into an interval: it lies there, and it is `v` if that did -/
structure Brought (low high v v' : Float) : Prop where
  above : low ≤ v'
  below : v' ≤ high
  kept : low ≤ v → v ≤ high → v' = v

section

variable {low high v v' w : Float}

/-- what is no number is brought to the lower end, as is what lies below it -/
theorem clamp_cases (h : low ≤ high) (v : Float) :
    ((v.isNaN = true ∨ v < low) ∧ clamp low high v = low) ∨
      (high < v ∧ clamp low high v = high) ∨ (low ≤ v ∧ v ≤ high) ∧ clamp low high v = v := by
  obtain ⟨⟨hlow, hhigh⟩, -⟩ := Number.le_iff_rung.1 h
  have hsplit : clamp low high v = if v.isNaN = true then low else
      if v < low then low else if high < v then high else v := by
    simp [clamp, isNumber, less]
  rw [hsplit]
  by_cases hv : v.isNaN = true
  · exact Or.inl ⟨Or.inl hv, if_pos hv⟩
  · rw [if_neg hv]
    have hv : v.isNaN = false := by simpa using hv
    by_cases hbelow : v < low
    · exact Or.inl ⟨Or.inr hbelow, if_pos hbelow⟩
    · rw [if_neg hbelow]
      by_cases habove : high < v
      · exact Or.inr (Or.inl ⟨habove, if_pos habove⟩)
      · refine Or.inr (Or.inr ⟨⟨?_, ?_⟩, if_neg habove⟩)
        · exact (Number.le_iff_not_lt hlow hv).2 hbelow
        · exact (Number.le_iff_not_lt hv hhigh).2 habove

theorem brought_clamp (h : low ≤ high) (v : Float) : Brought low high v (clamp low high v) := by
  obtain ⟨⟨hlow, hhigh⟩, -⟩ := Number.le_iff_rung.1 h
  rcases clamp_cases h v with ⟨hv, hclamp⟩ | ⟨hv, hclamp⟩ | ⟨⟨hge, hle⟩, hclamp⟩
  · rw [hclamp]
    refine ⟨Number.le_of_number hlow, h, fun hge _ => ?_⟩
    obtain ⟨⟨-, hnumber⟩, hrung⟩ := Number.le_iff_rung.1 hge
    rcases hv with hv | hv
    · rw [hnumber] at hv
      cases hv
    · exact absurd hv (Number.not_lt_of_le hge)
  · rw [hclamp]
    exact ⟨h, Number.le_of_number hhigh, fun _ hle => absurd hv (Number.not_lt_of_le hle)⟩
  · rw [hclamp]
    exact ⟨hge, hle, fun _ _ => rfl⟩

theorem Brought.clamp_eq (h : Brought low high v v') : clamp low high v' = v' :=
  (brought_clamp (Number.le_trans h.above h.below) v').kept h.above h.below

theorem le_clamp (hlow : low ≤ v) (hhigh : v ≤ high) (hvw : v ≤ w) : v ≤ clamp low high w := by
  rcases clamp_cases (Number.le_trans hlow hhigh) w with
    ⟨hw, -⟩ | ⟨-, hclamp⟩ | ⟨-, hclamp⟩
  · obtain ⟨⟨-, hnumber⟩, -⟩ := Number.le_iff_rung.1 hvw
    rcases hw with hw | hw
    · rw [hnumber] at hw
      cases hw
    · exact absurd hw (Number.not_lt_of_le (Number.le_trans hlow hvw))
  · rwa [hclamp]
  · rwa [hclamp]

theorem clamp_mono (h : low ≤ high) (hvw : v ≤ w) : clamp low high v ≤ clamp low high w := by
  obtain ⟨⟨-, hnumber⟩, -⟩ := Number.le_iff_rung.1 h
  rcases clamp_cases h v with ⟨-, hclamp⟩ | ⟨hv, hclamp⟩ | ⟨⟨hlow, hhigh⟩, hclamp⟩
  · rw [hclamp]
    exact (brought_clamp h w).above
  · rw [hclamp]
    exact le_clamp h (Number.le_of_number hnumber) (Number.le_trans (Number.le_of_lt hv) hvw)
  · rw [hclamp]
    exact le_clamp hlow hhigh hvw

end

/-! ### All numbers of a blueprint -/

/-- the same keys, and every value brought into the unit interval -/
def Keyed.Brought (m m' : Keyed Float) : Prop :=
  m.entries.Forall₂ (fun e e' => e'.1 = e.1 ∧ EffectFusion.Brought 0.0 1.0 e.2 e'.2) m'.entries

/-- the numbers of a profile brought into the unit interval, and all else as it was -/
structure Profile.Brought (p p' : Profile Float) : Prop where
  moduleId : p'.moduleId = p.moduleId
  specialization : p'.specialization = p.specialization
  algorithm : p'.algorithm = p.algorithm
  weight : EffectFusion.Brought 0.0 1.0 p.weight p'.weight
  compatibility : EffectFusion.Brought 0.0 1.0 p.compatibility p'.compatibility
  creative : p.creative.Brought p'.creative
  behavioral : p.behavioral.Brought p'.behavioral
  technical : p.technical.Brought p'.technical

/-- the numbers of a blueprint brought into the unit interval, what is expected of it into
`[0, max]`, and all else as it was, the whole essence included -/
structure Blueprint.Brought (max : Float) (b b' : Blueprint Float) : Prop where
  essence : b'.essence = b.essence
  strategy : b'.strategy = b.strategy
  level : b'.level = b.level
  modules : b.modules.Forall₂ Profile.Brought b'.modules
  intensity : EffectFusion.Brought 0.0 1.0 b.intensity b'.intensity
  visual : EffectFusion.Brought 0.0 max b.expected.visual b'.expected.visual
  performance : EffectFusion.Brought 0.0 max b.expected.performance b'.expected.performance
  creative : EffectFusion.Brought 0.0 max b.expected.creative b'.expected.creative
  behavioral : EffectFusion.Brought 0.0 max b.expected.behavioral b'.expected.behavioral

/-- The heaviest module first.  With several modules every weight has to be a number.  Weights are
compared by value: `-0.0` and a negative weight behind it become two zeros, of which the second is
above in the total order of bit patterns. -/
def Blueprint.Descending (b : Blueprint Float) : Prop :=
  b.modules.Pairwise fun p q => q.weight ≤ p.weight

theorem zero_le_one : (0.0 : Float) ≤ 1.0 := by decide +kernel

namespace Moderator

theorem forall₂_map {α : Type} {R : α → α → Prop} {f : α → α} (h : ∀ a, R a (f a)) (l : List α) :
    l.Forall₂ R (l.map f) := by
  rw [List.forall₂_map_right_iff, List.forall₂_same]
  exact fun a _ => h a

theorem brought_clampMap (m : Keyed Float) : m.Brought (clampMap m) :=
  forall₂_map (fun e => ⟨rfl, brought_clamp zero_le_one e.2⟩) m.entries

theorem brought_clampProfile (p : Profile Float) : p.Brought (clampProfile p) where
  moduleId := rfl
  specialization := rfl
  algorithm := rfl
  weight := brought_clamp zero_le_one p.weight
  compatibility := brought_clamp zero_le_one p.compatibility
  creative := brought_clampMap p.creative
  behavioral := brought_clampMap p.behavioral
  technical := brought_clampMap p.technical

variable {max : Float}

theorem brought_clamped (h : (0.0 : Float) ≤ max) (b : Blueprint Float) :
    b.Brought max (clamped max b) where
  essence := rfl
  strategy := rfl
  level := rfl
  modules := forall₂_map brought_clampProfile b.modules
  intensity := brought_clamp zero_le_one b.intensity
  visual := brought_clamp h b.expected.visual
  performance := brought_clamp h b.expected.performance
  creative := brought_clamp h b.expected.creative
  behavioral := brought_clamp h b.expected.behavioral

/-! ### A second pass -/

theorem clampUnit_idempotent (v : Float) : clampUnit (clampUnit v) = clampUnit v :=
  (brought_clamp zero_le_one v).clamp_eq

theorem clampMap_idempotent (m : Keyed Float) : clampMap (clampMap m) = clampMap m := by
  apply Keyed.ext
  show ((m.entries.map _).map _) = m.entries.map _
  rw [List.map_map]
  refine List.map_congr_left fun e _ => ?_
  exact congrArg (Prod.mk e.1) (clampUnit_idempotent e.2)

theorem clampProfile_idempotent (p : Profile Float) :
    clampProfile (clampProfile p) = clampProfile p := by
  simp only [clampProfile, clampUnit_idempotent, clampMap_idempotent]

theorem clamped_idempotent (h : (0.0 : Float) ≤ max) (b : Blueprint Float) :
    clamped max (clamped max b) = clamped max b := by
  have hmax : ∀ v : Float, clamp 0.0 max (clamp 0.0 max v) = clamp 0.0 max v := fun v =>
    (brought_clamp h v).clamp_eq
  simp only [clamped, clampUnit_idempotent, hmax, List.map_map, Function.comp_def, clampProfile_idempotent]

/-! ### The order of the modules -/

theorem descending_clamped {b : Blueprint Float} (h : b.Descending) :
    (clamped max b).Descending := by
  show (b.modules.map clampProfile).Pairwise _
  rw [List.pairwise_map]
  exact h.imp fun hpq => clamp_mono zero_le_one hpq

/-- **Clamping.**  With a bound that is not negative every blueprint is accepted.  What becomes of it
has its shape and all of its names, every number in its interval and none changed that was there
before; it is left alone by a second pass; and modules in the order of their weights stay so. -/
theorem clampTo_brings (h : (0.0 : Float) ≤ max) (b : Blueprint Float) :
    ∃ b', clampTo max b = .ok b' ∧ (Shape.of b).verify b' = .ok () ∧ b.Brought max b' ∧
      clampTo max b' = .ok b' ∧ (b.Descending → b'.Descending) := by
  have hmax : atMost 0.0 max = true := by simpa [atMost] using h
  have htags := tags_withoutAmounts_of_tags (tags_clamped max b)
  refine ⟨clamped max b, clampTo_eq_ok hmax b, ?_, brought_clamped h b, ?_, descending_clamped⟩
  · rw [Shape.verify_eq_ok_iff, Shape.of_eq_iff]
    exact htags
  · rw [clampTo_eq_ok hmax, clamped_idempotent h]

/-- two modules; no number that may be changed lies in its interval but two zeros -/
def wild : Blueprint Float :=
  { loneBlueprint with
    modules := [
      ⟨"shader_library", .visual, 0.0 / 0.0, 1.0 / 0.0, .ofList [("energy", -0.0)], .empty,
        .ofList [("performance", 0.0 / 0.0)], .technical⟩,
      ⟨"color_theory", .visual, 7.5, -0.25, .ofList [("energy", -1.0 / 0.0), ("hue", 1.5)],
        .empty, .empty, .creative⟩]
    intensity := 0.0 / 0.0
    expected := ⟨1.0 / 0.0, -0.0, -1.0 / 0.0, 0.0 / 0.0⟩ }

theorem clampTo_brings_wild : (0.0 : Float) ≤ 50.0 ∧ wild.Descending ∧
    ∃ b', clampTo 50.0 wild = .ok b' ∧ wild.Brought 50.0 b' ∧ b'.Descending := by
  have hmax : (0.0 : Float) ≤ 50.0 := by decide +kernel
  have hwild : wild.Descending := by
    unfold Blueprint.Descending
    decide +kernel
  obtain ⟨b', hb', -, hbrought, -, hdescending⟩ := clampTo_brings hmax wild
  exact ⟨hmax, hwild, b', hb', hbrought, hdescending hwild⟩

end Moderator

end EffectFusion
