import EffectFusion.Essence.Extract
import EffectFusion.Proofs.Keyed
import EffectFusion.Proofs.Number.Monotone
import EffectFusion.Proofs.Text.Matching

/-!
# Effects inside of larger files

An effect keeps its features when lines are put above and below it.  No line that is added can take
away the occurrence of a pattern, so all that follows from occurrences can only grow: the features of
a table, the position of the first rule that applies (it can only move to the front), tiers, and sums
of amounts that are not negative.

* `within_lines`       a text within a text that holds its lines;
* `idxOf_firstMatch`   the first rule that applies;
* `total_mono`         sums of amounts;
* `height_cpuOf`       the tier of the processor, which is a matter of doubles;
* `features_survive`   the essence.
-/

namespace EffectFusion

def Tier.height : Tier → Nat
  | .low => 0
  | .medium => 1
  | .high => 2

namespace Essence

open Text Number Number.Extended

open Scalar hiding atMost

/-- what occurs in `s` occurs in `t`, and `t` is no shorter -/
structure Within (s t : List Char) : Prop where
  occurs : ∀ p : Pattern, p.occurs s = true → p.occurs t = true
  length : Script.byteLength s ≤ Script.byteLength t

theorem within_lines (s above below : List Char) :
    Within s (above ++ '\n' :: (s ++ '\n' :: below)) where
  occurs _ h := Pattern.occurs_between h above below
  length := by
    simp only [Script.byteLength_append, Script.byteLength]
    omega

section

variable {s t : List Char}

/-! ### Features -/

theorem mem_allMatches {α : Type} (h : Within s t) (rules : List (Pattern × α)) {v : α}
    (hv : v ∈ allMatches rules s) : v ∈ allMatches rules t := by
  obtain ⟨r, hr, rfl⟩ := List.mem_map.1 hv
  obtain ⟨hmem, hoccurs⟩ := List.mem_filter.1 hr
  exact List.mem_map_of_mem (List.mem_filter.2 ⟨hmem, h.occurs _ hoccurs⟩)

theorem mem_ofList_allMatches {α : Type} [Tag α] (h : Within s t) (rules : List (Pattern × α))
    {v : α} (hv : v ∈ (TagSet.ofList (allMatches rules s)).members) :
    v ∈ (TagSet.ofList (allMatches rules t)).members := by
  simp only [TagSet.ofList, TagSet.mem_filter, List.contains_iff_mem] at hv ⊢
  exact hv.imp_right (mem_allMatches h rules)

theorem mem_found {flags : Keyed Bool} {name : String} :
    name ∈ found flags ↔ flags.get? name = some true := by
  simp [found, Keyed.get?_eq_some_iff]

theorem found_flags (h : Within s t) (rules : List (Pattern × String)) {name : String}
    (hname : name ∈ found (flags rules s)) : name ∈ found (flags rules t) := by
  rw [mem_found] at hname ⊢
  unfold flags at hname ⊢
  induction rules using List.reverseRecOn with
  | nil => exact hname
  | append_singleton rules r ih =>
    rw [List.map_append, List.map_singleton, Keyed.ofList_concat, Keyed.get?_insert] at hname ⊢
    split
    · rename_i hsame
      rw [if_pos hsame, Option.some_inj] at hname
      rw [h.occurs _ hname]
    · rename_i hdiffer
      rw [if_neg hdiffer] at hname
      exact ih hname

/-! ### The first rule that applies -/

theorem mem_of_firstMatch? {α : Type} {rules : List (Pattern × α)} {v : α}
    (h : firstMatch? rules s = some v) : v ∈ rules.map (·.2) := by
  obtain ⟨r, hr, rfl⟩ := Option.map_eq_some_iff.1 h
  exact List.mem_map_of_mem (List.mem_of_find?_eq_some hr)

/-- the value is that of the same or of an earlier rule; a value without a rule comes last -/
theorem idxOf_firstMatch {α : Type} [DecidableEq α] (h : Within s t)
    {rules : List (Pattern × α)} {other : α} (hdiffer : (other :: rules.map (·.2)).Nodup) :
    (rules.map (·.2)).idxOf ((firstMatch? rules t).getD other) ≤
      (rules.map (·.2)).idxOf ((firstMatch? rules s).getD other) := by
  induction rules with
  | nil => exact le_refl _
  | cons r rules ih =>
    obtain ⟨hother, hrest⟩ := List.nodup_cons.1 hdiffer
    rw [List.map_cons, List.mem_cons, not_or] at hother
    obtain ⟨hr, hnodup⟩ := List.nodup_cons.1 hrest
    have ih := ih (List.nodup_cons.2 ⟨hother.2, hnodup⟩)
    by_cases ht : r.1.occurs t = true
    · simp [firstMatch?, ht]
    · have hs : ¬ r.1.occurs s = true := fun hs => ht (h.occurs _ hs)
      have hlater : ∀ u, (firstMatch? rules u).getD other ≠ r.2 := by
        intro u he
        cases hfirst : firstMatch? rules u with
        | none =>
          rw [hfirst] at he
          exact hother.1 he
        | some v =>
          rw [hfirst] at he
          exact hr (show r.2 ∈ _ from (show v = r.2 from he) ▸ mem_of_firstMatch? hfirst)
      have hskip : ∀ u, ¬ r.1.occurs u = true →
          firstMatch? (r :: rules) u = firstMatch? rules u := by
        intro u hu
        simp [firstMatch?, hu]
      rw [hskip s hs, hskip t ht, List.map_cons, List.idxOf_cons_ne _ (hlater t).symm,
        List.idxOf_cons_ne _ (hlater s).symm]
      exact Nat.succ_le_succ ih

/-! ### Tiers -/

theorem height_memoryOf (h : Within s t) : (memoryOf s).height ≤ (memoryOf t).height := by
  unfold memoryOf
  by_cases hhigh : memoryHigh.occurs s = true
  · rw [if_pos hhigh, if_pos (h.occurs _ hhigh)]
  · rw [if_neg hhigh]
    by_cases hmedium : memoryMedium.occurs s = true
    · rw [if_pos hmedium, if_pos (h.occurs _ hmedium)]
      split <;> decide
    · rw [if_neg hmedium]
      exact Nat.zero_le _

end

/-! ### Sums of amounts -/

section

variable {A : Type} [Add A]

/-- a baseline and the amounts whose flags are set, added from left to right -/
def total (baseline : A) : List A → List Bool → A
  | v :: vs, flag :: flags => total (if flag then baseline + v else baseline) vs flags
  | _, _ => baseline

/-- every flag of the first list is set in the second -/
def Among (flags flags' : List Bool) : Prop := List.Forall₂ (fun f f' => f = true → f' = true) flags flags'

/-- a relation that amounts keep on both sides and on the right holds of sums with more flags -/
theorem total_mono {R : A → A → Prop} {amounts : List A} {flags flags' : List Bool} {b b' : A}
    (hboth : ∀ v ∈ amounts, ∀ x y, R x y → R (x + v) (y + v))
    (hright : ∀ v ∈ amounts, ∀ x y, R x y → R x (y + v)) (hflags : Among flags flags')
    (h : R b b') : R (total b amounts flags) (total b' amounts flags') := by
  induction amounts generalizing flags flags' b b' with
  | nil => exact h
  | cons v amounts ih =>
    cases hflags with
    | nil => exact h
    | @cons f f' flags flags' hf hflags =>
      have hv := List.mem_cons_self (a := v) (l := amounts)
      refine ih (fun w hw => hboth w (List.mem_cons_of_mem v hw))
        (fun w hw => hright w (List.mem_cons_of_mem v hw)) hflags ?_
      cases f with
      | true =>
        rw [hf rfl]
        exact hboth v hv b b' h
      | false =>
        cases f' with
        | true => exact hright v hv b b' h
        | false => exact h

end

theorem accumulate_eq_total {F : Type} [Scalar F] (baseline : F) (rules : List (Pattern × F))
    (source : List Char) : accumulate baseline rules source =
      total baseline (rules.map (·.2)) (rules.map (fun r => r.1.occurs source)) := by
  induction rules generalizing baseline with
  | nil => rfl
  | cons r rules ih =>
    rw [List.map_cons, List.map_cons, total, ← ih]
    by_cases h : r.1.occurs source = true <;> simp [accumulate, allMatches, h]

theorem among_occurs {α : Type} {s t : List Char} (h : Within s t) (rules : List (Pattern × α)) :
    Among (rules.map (fun r => r.1.occurs s)) (rules.map (fun r => r.1.occurs t)) := by
  induction rules with
  | nil => exact .nil
  | cons r rules ih => exact .cons (h.occurs r.1) ih

/-! ### Complexity -/

/-- what complexity looks at: the patterns of its rules, and whether the text is long -/
def complexityFlags (source : List Char) : List Bool :=
  (complexityRules : List (Pattern × Float)).map (fun r => r.1.occurs source)
    ++ [decide (longSource < Script.byteLength source)]

theorem among_complexityFlags {s t : List Char} (h : Within s t) :
    Among (complexityFlags s) (complexityFlags t) := by
  refine List.rel_append (among_occurs h complexityRules) (.cons (fun hlong => ?_) .nil)
  rw [decide_eq_true_eq] at hlong ⊢
  exact hlong.trans_le h.length

theorem complexityOf_eq {F : Type} [Scalar F] (source : List Char) : (complexityOf source : F) =
    score (total 0.0 [0.2, 0.2, 0.2, 0.2, 0.1, 0.1] (complexityFlags source)) := by
  simp only [complexityOf, accumulate_eq_total]
  by_cases h : longSource < Script.byteLength source
  · rw [if_pos h, complexityFlags, decide_eq_true h]
    rfl
  · rw [if_neg h, complexityFlags, decide_eq_false h]
    rfl

/-- the tier of a number of tenths -/
def tierOfTenths (n : Nat) : Tier := if 6 ≤ n then .high else if 3 ≤ n then .medium else .low

theorem height_tierOfTenths {m n : Nat} (h : m ≤ n) :
    (tierOfTenths m).height ≤ (tierOfTenths n).height := by
  unfold tierOfTenths
  split
  · rw [if_pos (by omega)]
  · split
    · split
      · decide
      · rw [if_pos (by omega)]
    · exact Nat.zero_le _

/-- rounding to four places takes away what sums of doubles are off, so the tier counts tenths -/
theorem cpuOf_total : ∀ flags : List Bool, flags.length = 6 →
    cpuOf (score (total (0.0 : Float) [0.2, 0.2, 0.2, 0.2, 0.1, 0.1] flags)) =
      tierOfTenths (total 0 [2, 2, 2, 2, 1, 1] flags)
  | [a, b, c, d, e, f], _ => by
    revert a b c d e f
    decide +kernel

theorem height_cpuOf {s t : List Char} (h : Within s t) :
    (cpuOf (complexityOf s : Float)).height ≤ (cpuOf (complexityOf t : Float)).height := by
  have hlength : ∀ source, (complexityFlags source).length = 6 := fun _ => rfl
  rw [complexityOf_eq, complexityOf_eq, cpuOf_total _ (hlength s), cpuOf_total _ (hlength t)]
  refine height_tierOfTenths (total_mono (fun v _ x y hxy => Nat.add_le_add_right hxy v)
    (fun v _ x y hxy => hxy.trans (Nat.le_add_right y v)) (among_complexityFlags h) (le_refl 0))

/-! ### Exact scores -/

def InOrder (v w : Extended) : Prop := ∃ p q : ℚ, p ≤ q ∧ v = value p ∧ w = value q

section

variable [Choices] {s t : List Char}

theorem score_total_mono {amounts : List Extended} {flags flags' : List Bool} (b : ℚ)
    (hamounts : ∀ v ∈ amounts, ∃ q : ℚ, 0 ≤ q ∧ v = value q) (hflags : Among flags flags') :
    Scalar.atMost (score (total (value b) amounts flags))
      (score (total (value b) amounts flags')) = true := by
  have hsums : InOrder (total (value b) amounts flags) (total (value b) amounts flags') := by
    refine total_mono ?_ ?_ hflags ⟨b, b, le_refl b, rfl, rfl⟩
    · rintro v hv _ _ ⟨p, q, hpq, rfl, rfl⟩
      obtain ⟨a, -, rfl⟩ := hamounts v hv
      exact ⟨p + a, q + a, add_le_add_left hpq a, rfl, rfl⟩
    · rintro v hv _ _ ⟨p, q, hpq, rfl, rfl⟩
      obtain ⟨a, ha, rfl⟩ := hamounts v hv
      exact ⟨p, q + a, le_add_of_le_of_nonneg hpq ha, rfl, rfl⟩
  obtain ⟨p, q, hpq, hp, hq⟩ := hsums
  rw [hp, hq]
  exact score_mono hpq

theorem atMost_complexityOf (h : Within s t) :
    Scalar.atMost (complexityOf s : Extended) (complexityOf t) = true := by
  rw [complexityOf_eq, complexityOf_eq]
  refine score_total_mono 0.0 ?_ (among_complexityFlags h)
  have hfifth : ∃ q : ℚ, 0 ≤ q ∧ (0.2 : Extended) = value q := ⟨0.2, by norm_num, rfl⟩
  have htenth : ∃ q : ℚ, 0 ≤ q ∧ (0.1 : Extended) = value q := ⟨0.1, by norm_num, rfl⟩
  simp only [List.forall_mem_cons, hfifth, htenth, true_and, List.not_mem_nil, false_implies,
    implies_true]

theorem atMost_innovationOf (h : Within s t) :
    Scalar.atMost (innovationOf s : Extended) (innovationOf t) = true := by
  unfold innovationOf
  rw [accumulate_eq_total, accumulate_eq_total]
  refine score_total_mono 0.3 ?_ (among_occurs h innovationRules)
  have hfifth : ∃ q : ℚ, 0 ≤ q ∧ (0.2 : Extended) = value q := ⟨0.2, by norm_num, rfl⟩
  have htenth : ∃ q : ℚ, 0 ≤ q ∧ (0.1 : Extended) = value q := ⟨0.1, by norm_num, rfl⟩
  simp only [innovationRules, List.map_cons, List.map_nil, List.forall_mem_cons, hfifth, htenth,
    true_and, List.not_mem_nil, false_implies, implies_true]

end

/-! ### The essence -/

/-- What the first essence shows the second shows as well.  Kinds are those of the same rule or of
an earlier one, where a kind without a rule comes after all rules. -/
structure Covered (a b : Essence Float) : Prop where
  movements : ∀ m ∈ a.core.movements.members, m ∈ b.core.movements.members
  platforms : ∀ p ∈ a.technical.platforms.members, p ∈ b.technical.platforms.members
  visual : ∀ name ∈ a.visualFeatures, name ∈ b.visualFeatures
  mathematics : ∀ name ∈ a.mathFeatures, name ∈ b.mathFeatures
  animation : (animationRules.map (·.2)).idxOf b.core.animation ≤
    (animationRules.map (·.2)).idxOf a.core.animation
  aesthetic : (aestheticRules.map (·.2)).idxOf b.dna.aesthetic ≤
    (aestheticRules.map (·.2)).idxOf a.dna.aesthetic
  memory : a.technical.performance.memory.height ≤ b.technical.performance.memory.height
  cpu : a.technical.performance.cpu.height ≤ b.technical.performance.cpu.height

theorem covered_extract {s t : List Char} (h : Within s t) :
    Covered (extract s) (extract t) where
  movements _ hm := mem_ofList_allMatches h movementRules hm
  platforms _ hp := mem_ofList_allMatches h platformRules hp
  visual _ hname := found_flags h visualRules hname
  mathematics _ hname := found_flags h mathematicsRules hname
  animation := idxOf_firstMatch h (by decide)
  aesthetic := idxOf_firstMatch h (by decide)
  memory := height_memoryOf h
  cpu := height_cpuOf h

/-- **Effects inside of larger files.**  Whatever lines stand above and below an effect, every
movement, platform and feature of the effect is one of the file, its kinds come from the same rules
or from earlier ones, and its tiers are no lower; over exact numbers the file is no less complex and
no less innovative. -/
theorem features_survive (s above below : List Char) :
    Covered (extract s) (extract (above ++ '\n' :: (s ++ '\n' :: below))) ∧
      ∀ _ : Choices,
        Scalar.atMost (extract s : Essence Extended).dna.complexity
          (extract (above ++ '\n' :: (s ++ '\n' :: below))).dna.complexity = true ∧
        Scalar.atMost (extract s : Essence Extended).dna.innovation
          (extract (above ++ '\n' :: (s ++ '\n' :: below))).dna.innovation = true := by
  have h := within_lines s above below
  exact ⟨covered_extract h, fun _ => ⟨atMost_complexityOf h, atMost_innovationOf h⟩⟩

end Essence

end EffectFusion
