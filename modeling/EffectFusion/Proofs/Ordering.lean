import EffectFusion.Catalog
import EffectFusion.Profile
import Mathlib

/-!
# Modules and profiles in order

Modules are sorted twice: when they are selected, by a chain of four comparisons, and as profiles,
by weight.  Both comparisons say that one rank is not above another, so both are total preorders,
and a stable sort by such a comparison can change places with a filter.  What is left of a sorted
list therefore does not depend on what was filtered out of it.

* `filter_mergeSort`            sorting and then filtering is filtering and then sorting;
* `filter_mergeSort_of_tied`    a stable sort does not part members of one rank;
* `Enhancement.mayPrecede_iff`  the chain of comparisons is one comparison of ranks;
* `filter_select`               the selection of a lower level, from that of a higher one;
* `filter_analyze`              the profiles of some modules, from those of more.
-/

namespace EffectFusion

/-! ### Stable sorts -/

section

variable {α : Type} {le : α → α → Bool}

theorem takeWhile_append_eq_left {p : α → Bool} {l r : List α} (hl : ∀ b ∈ l, p b = true)
    (hr : ∀ b ∈ r, p b = false) : (l ++ r).takeWhile p = l := by
  rw [List.takeWhile_append_of_pos hl]
  cases r with
  | nil => simp
  | cons b r => simp [hr b]

theorem le_of_mergeSort_eq (trans : ∀ a b c, le a b = true → le b c = true → le a c = true)
    (total : ∀ a b, (le a b || le b a) = true) {a : α} {l l₁ l₂ : List α}
    (h : l.mergeSort le = l₁ ++ a :: l₂) : ∀ b ∈ l₂, le a b = true := by
  have hpairs := List.pairwise_mergeSort trans total l
  rw [h] at hpairs
  exact (List.pairwise_cons.1 (List.pairwise_append.1 hpairs).2.1).1

/-- Filtering a sorted list is sorting the filtered one.  A sort puts the head of its list behind
exactly those that come strictly before it, and this prefix can be read off with or without the
members that the filter drops. -/
theorem filter_mergeSort (trans : ∀ a b c, le a b = true → le b c = true → le a c = true)
    (total : ∀ a b, (le a b || le b a) = true) (p : α → Bool) (l : List α) :
    (l.mergeSort le).filter p = (l.filter p).mergeSort le := by
  induction l with
  | nil => simp
  | cons a l ih =>
    obtain ⟨l₁, l₂, hsorted, hrest, hbefore⟩ := List.mergeSort_cons trans total a l
    rw [hrest, List.filter_append] at ih
    by_cases hp : p a = true
    · obtain ⟨m₁, m₂, hsorted', hrest', hbefore'⟩ :=
        List.mergeSort_cons trans total a (l.filter p)
      have hjoin : l₁.filter p ++ l₂.filter p = m₁ ++ m₂ := ih.trans hrest'
      have hbehind : ∀ b ∈ l₂.filter p, (!le a b) = false := by
        intro b hb
        rw [le_of_mergeSort_eq trans total hsorted b (List.mem_of_mem_filter hb), Bool.not_true]
      have hbehind' : ∀ b ∈ m₂, (!le a b) = false := by
        intro b hb
        rw [le_of_mergeSort_eq trans total hsorted' b hb, Bool.not_true]
      have hleft : l₁.filter p = m₁ := by
        calc l₁.filter p = (l₁.filter p ++ l₂.filter p).takeWhile (fun b => !le a b) :=
              (takeWhile_append_eq_left
                (fun b hb => hbefore b (List.mem_of_mem_filter hb)) hbehind).symm
          _ = (m₁ ++ m₂).takeWhile (fun b => !le a b) := by rw [hjoin]
          _ = m₁ := takeWhile_append_eq_left hbefore' hbehind'
      rw [hleft, List.append_cancel_left_eq] at hjoin
      rw [hsorted, List.filter_append, List.filter_cons_of_pos hp, hleft, hjoin,
        List.filter_cons_of_pos hp, hsorted']
    · rw [hsorted, List.filter_append, List.filter_cons_of_neg hp, ih, List.filter_cons_of_neg hp]

/-- members that may stand in any order among themselves stand as they were given -/
theorem filter_mergeSort_of_tied
    (trans : ∀ a b c, le a b = true → le b c = true → le a c = true)
    (total : ∀ a b, (le a b || le b a) = true) {p : α → Bool} {l : List α}
    (h : ∀ a ∈ l, p a = true → ∀ b ∈ l, p b = true → le a b = true) :
    (l.mergeSort le).filter p = l.filter p := by
  rw [filter_mergeSort trans total, List.mergeSort_of_pairwise]
  refine List.pairwise_of_forall_mem_list fun a ha b hb => ?_
  obtain ⟨ha, hpa⟩ := List.mem_filter.1 ha
  obtain ⟨hb, hpb⟩ := List.mem_filter.1 hb
  exact h a ha hpa b hb hpb

end

theorem trans_of_rank {α β : Type} [LinearOrder β] {le : α → α → Bool} {rank : α → β}
    (h : ∀ a b, le a b = true ↔ rank b ≤ rank a) (a b c : α) (hab : le a b = true)
    (hbc : le b c = true) : le a c = true := by
  rw [h] at hab hbc ⊢
  exact hbc.trans hab

theorem total_of_rank {α β : Type} [LinearOrder β] {le : α → α → Bool} {rank : α → β}
    (h : ∀ a b, le a b = true ↔ rank b ≤ rank a) (a b : α) : (le a b || le b a) = true := by
  rw [Bool.or_eq_true, h, h]
  exact le_total _ _

section

variable {F : Type} [Scalar F]

/-! ### The order of modules -/

namespace Enhancement

/-- no priority is below all others -/
def priorityRank : Option Int32 → WithBot ℤ
  | none => ⊥
  | some p => (p.toInt : WithBot ℤ)

/-- what the order of modules looks at, the first counts most -/
def rank (m : Enhancement F) : Bool ×ₗ WithBot ℤ ×ₗ ℕ ×ₗ ℤ :=
  toLex (m.universal, toLex (priorityRank m.priority,
    toLex (m.level.toNat, Scalar.place m.technical)))

theorem priorityAbove_iff (p q : Option Int32) :
    priorityAbove p q = true ↔ priorityRank q < priorityRank p := by
  cases p <;> cases q <;> simp [priorityAbove, priorityRank, Int32.lt_iff_toInt_lt]

theorem priorityRank_inj {p q : Option Int32} : priorityRank p = priorityRank q ↔ p = q := by
  cases p <;> cases q <;> simp [priorityRank, Int32.toInt_inj]

theorem mayPrecede_iff (a b : Enhancement F) : a.mayPrecede b = true ↔ b.rank ≤ a.rank := by
  unfold mayPrecede rank
  simp only [Prod.Lex.toLex_le_toLex, priorityRank_inj, ← priorityAbove_iff, UInt8.toNat_inj]
  by_cases huniversal : a.universal = b.universal
  · by_cases hpriority : a.priority = b.priority
    · have hsame : ¬ priorityAbove b.priority b.priority = true := by
        rw [priorityAbove_iff]
        exact lt_irrefl _
      by_cases hlevel : a.level = b.level
      · simp [huniversal, hpriority, hlevel, hsame]
      · simp [huniversal, hpriority, hlevel, hsame, Ne.symm hlevel, UInt8.lt_iff_toNat_lt]
    · simp [huniversal, hpriority, Ne.symm hpriority]
  · rw [if_pos huniversal]
    cases ha : a.universal <;> cases hb : b.universal <;> simp_all

end Enhancement

namespace Catalog

/-- the selection of a lower level is that of a higher one without the modules that do not take
part -/
theorem filter_select (c : Catalog F) {low high : UInt8} (h : low ≤ high) :
    (c.select high).filter (fun m => m.activeAt low) = c.select low := by
  unfold select
  rw [filter_mergeSort (trans_of_rank Enhancement.mayPrecede_iff)
    (total_of_rank Enhancement.mayPrecede_iff), List.filter_filter]
  congr 1
  apply List.filter_congr
  intro m _
  rw [Bool.and_eq_left_iff_imp]
  intro hlow
  unfold Enhancement.activeAt at hlow ⊢
  rw [Bool.or_eq_true, decide_eq_true_eq] at hlow ⊢
  exact hlow.imp_left fun hle => UInt8.le_trans hle h

end Catalog

/-! ### The order of profiles -/

theorem Profile.mayPrecede_iff (a b : Profile F) :
    a.mayPrecede b = true ↔ Scalar.place b.weight ≤ Scalar.place a.weight := by
  unfold Profile.mayPrecede
  rw [decide_eq_true_eq]

theorem filter_analyze (e : Essence F) {ms : List (Enhancement F)} {p : Profile F → Bool}
    {q : Enhancement F → Bool} (h : ∀ m ∈ ms, p (profile e m) = q m) :
    (analyze e ms).filter p = analyze e (ms.filter q) := by
  unfold analyze
  rw [filter_mergeSort (trans_of_rank Profile.mayPrecede_iff)
    (total_of_rank Profile.mayPrecede_iff), List.filter_map]
  congr 2
  apply List.filter_congr
  exact h

end

end EffectFusion
