import EffectFusion.Proofs.Config
import EffectFusion.Proofs.Number.Order
import EffectFusion.Proofs.Ordering
import Mathlib.Data.List.Perm.Basic

/-!
# What a selection is

A catalogue is asked for the modules of a level.  What the answer has to be is said here without
a sort: which modules are in it and how often, which of two modules has to stand in front, and that
modules of the same rank stand as in the catalogue.  There is one such list and it is the one that
`Catalog.select` returns.

* `Enhancement.outranks_iff`   to outrank is to be before by rank, for weights that are numbers;
* `Selection.eq`               there is at most one selection;
* `Catalog.selection_select`   the sort finds it.
-/

namespace EffectFusion

namespace Enhancement

/-! ### The rank of a module -/

/-- `a` has to stand in front of `b`: the first of four keys in which they differ decides.  No
priority is below every priority, and of the technical weights `-0.0` is below `0.0`. -/
def Outranks (a b : Enhancement Float) : Prop :=
  (a.universal = true ∧ b.universal = false) ∨ a.universal = b.universal ∧
    (b.priority < a.priority ∨ a.priority = b.priority ∧
      (b.level < a.level ∨ a.level = b.level ∧
        (b.technical < a.technical ∨ b.technical = -0.0 ∧ a.technical = 0.0)))

instance (p q : Option Int32) : Decidable (p < q) :=
  inferInstanceAs (Decidable (Option.lt (· < ·) p q))

instance (a b : Enhancement Float) : Decidable (a.Outranks b) :=
  inferInstanceAs (Decidable (_ ∨ _ ∧ (_ ∨ _ ∧ (_ ∨ _ ∧ (_ ∨ _ ∧ _)))))

/-- equal in all that the order of modules looks at -/
structure SameKeys (a b : Enhancement Float) : Prop where
  universal : a.universal = b.universal
  priority : a.priority = b.priority
  level : a.level = b.level
  technical : a.technical = b.technical

section

variable {a b : Enhancement Float}

theorem priorityRank_lt_iff (p q : Option Int32) : priorityRank p < priorityRank q ↔ p < q := by
  cases p <;> cases q <;> simp [priorityRank, Int32.lt_iff_toInt_lt]

/-- with weights that are numbers to outrank is to have the higher rank -/
theorem outranks_iff (ha : a.technical.isNaN = false) (hb : b.technical.isNaN = false) :
    a.Outranks b ↔ b.rank < a.rank := by
  unfold Outranks rank
  simp only [Prod.Lex.toLex_lt_toLex, priorityRank_lt_iff, priorityRank_inj, Bool.lt_iff,
    UInt8.lt_iff_toNat_lt, UInt8.toNat_inj]
  have hplace : Scalar.place b.technical < Scalar.place a.technical ↔
      b.technical < a.technical ∨ b.technical = -0.0 ∧ a.technical = 0.0 :=
    Number.orderPlace_lt_iff hb ha
  rw [hplace, @eq_comm _ b.universal a.universal, @eq_comm _ b.priority, @eq_comm _ b.level,
    and_comm (a := b.universal = false)]

theorem sameKeys_iff : a.SameKeys b ↔ a.rank = b.rank := by
  have hplace : Scalar.place a.technical = Scalar.place b.technical ↔ a.technical = b.technical :=
    Number.orderPlace_inj
  unfold rank
  simp only [toLex_inj, Prod.mk.injEq, priorityRank_inj, UInt8.toNat_inj, hplace]
  exact ⟨fun h => ⟨h.universal, h.priority, h.level, h.technical⟩,
    fun ⟨h1, h2, h3, h4⟩ => ⟨h1, h2, h3, h4⟩⟩

instance (a b : Enhancement Float) : Decidable (a.SameKeys b) :=
  decidable_of_iff (a.rank = b.rank) sameKeys_iff.symm

end

end Enhancement

/-! ### Selections -/

/-- the modules that a level asks for -/
structure Selection (ms : List (Enhancement Float)) (level : UInt8)
    (xs : List (Enhancement Float)) : Prop where
  once : xs.Nodup
  mem_iff : ∀ m, m ∈ xs ↔ m ∈ ms ∧ (m.level ≤ level ∨ m.universal = true)
  sorted : xs.Pairwise fun a b => ¬ b.Outranks a
  stable : xs.Pairwise fun a b => a.SameKeys b → [a, b].Sublist ms

/-- the members have to be compared with the catalogue's only -/
instance (ms xs : List (Enhancement Float)) (level : UInt8) : Decidable (Selection ms level xs) :=
  decidable_of_iff
    (xs.Nodup ∧ ((∀ m ∈ xs, m ∈ ms ∧ (m.level ≤ level ∨ m.universal = true)) ∧
        ∀ m ∈ ms, m.level ≤ level ∨ m.universal = true → m ∈ xs) ∧
      xs.Pairwise (fun a b => ¬ b.Outranks a) ∧
      xs.Pairwise fun a b => a.SameKeys b → [a, b].Sublist ms)
    ⟨fun ⟨h1, h2, h3, h4⟩ => ⟨h1, fun m => ⟨h2.1 m, fun h => h2.2 m h.1 h.2⟩, h3, h4⟩,
      fun h => ⟨h.once, ⟨fun m => (h.mem_iff m).1, fun m hm hlevel => (h.mem_iff m).2 ⟨hm, hlevel⟩⟩,
        h.sorted, h.stable⟩⟩

section

variable {ms xs ys : List (Enhancement Float)} {level : UInt8}

theorem not_swapped {α : Type} {l : List α} {a b : α} (hl : l.Nodup) (hab : [a, b].Sublist l) :
    ¬ [b, a].Sublist l := by
  intro hba
  induction l with
  | nil => cases hab
  | cons c l ih =>
    obtain ⟨hc, hl⟩ := List.nodup_cons.1 hl
    rcases List.sublist_cons_iff.1 hab with hab' | ⟨r, hr, hrest⟩
    · rcases List.sublist_cons_iff.1 hba with hba' | ⟨r, hr, -⟩
      · exact ih hl hab' hba'
      · obtain ⟨rfl, -⟩ := List.cons.inj hr
        exact hc (hab'.subset (List.mem_cons_of_mem _ List.mem_cons_self))
    · obtain ⟨rfl, rfl⟩ := List.cons.inj hr
      rcases List.sublist_cons_iff.1 hba with hba' | ⟨r, hr, -⟩
      · exact hc (hba'.subset (List.mem_cons_of_mem _ List.mem_cons_self))
      · obtain ⟨rfl, -⟩ := List.cons.inj hr
        exact hc (hrest.subset List.mem_cons_self)

/-- **At most one.**  Two selections have the same members, and of two members that are not of the
same rank only one may stand in front; two of the same rank stand as in the catalogue. -/
theorem Selection.eq (hms : ms.Nodup) (hnumbers : ∀ m ∈ ms, m.technical.isNaN = false)
    (hxs : Selection ms level xs) (hys : Selection ms level ys) : xs = ys := by
  have hperm : xs.Perm ys := by
    rw [List.perm_ext_iff_of_nodup hxs.once hys.once]
    intro m
    rw [hxs.mem_iff, hys.mem_iff]
  refine List.Perm.eq_of_pairwise (fun a b ha hb hab hba => ?_)
    (hxs.sorted.and hxs.stable) (hys.sorted.and hys.stable) hperm
  have ha := hnumbers a ((hxs.mem_iff a).1 ha).1
  have hb := hnumbers b ((hys.mem_iff b).1 hb).1
  have hle := hab.1
  have hge := hba.1
  rw [Enhancement.outranks_iff hb ha, not_lt] at hle
  rw [Enhancement.outranks_iff ha hb, not_lt] at hge
  have hrank : a.rank = b.rank := le_antisymm hge hle
  have hbefore := hab.2 (Enhancement.sameKeys_iff.2 hrank)
  have hbehind := hba.2 (Enhancement.sameKeys_iff.2 hrank.symm)
  exact absurd hbehind (not_swapped hms hbefore)

namespace Catalog

variable {c : Catalog Float}

theorem filter_rank_select (c : Catalog Float) (level : UInt8) (m : Enhancement Float) :
    ((c.select level).filter (fun x => decide (m.rank = x.rank))).Sublist c.modules := by
  unfold select
  rw [filter_mergeSort_of_tied (trans_of_rank Enhancement.mayPrecede_iff)
    (total_of_rank Enhancement.mayPrecede_iff)]
  · exact List.filter_sublist.trans List.filter_sublist
  · intro a _ ha b _ hb
    rw [decide_eq_true_eq] at ha hb
    rw [Enhancement.mayPrecede_iff, ← ha, ← hb]

theorem selection_select (hms : c.modules.Nodup)
    (hnumbers : ∀ m ∈ c.modules, m.technical.isNaN = false) (level : UInt8) :
    Selection c.modules level (c.select level) where
  once := (select_perm c level).nodup_iff.2 (hms.filter _)
  mem_iff m := by
    rw [(select_perm c level).mem_iff, List.mem_filter, Enhancement.activeAt, Bool.or_eq_true,
      decide_eq_true_eq]
  sorted := by
    have hpairs := List.pairwise_mergeSort (trans_of_rank Enhancement.mayPrecede_iff)
      (total_of_rank Enhancement.mayPrecede_iff) (c.modules.filter (fun m => m.activeAt level))
    have hsound : ∀ m ∈ c.select level, m.technical.isNaN = false := fun m hm =>
      hnumbers m (List.mem_of_mem_filter ((select_perm c level).mem_iff.1 hm))
    refine hpairs.imp_of_mem fun {a b} ha hb hab => ?_
    rw [Enhancement.outranks_iff (hsound b hb) (hsound a ha), not_lt]
    exact (Enhancement.mayPrecede_iff a b).1 hab
  stable := by
    rw [List.pairwise_iff_forall_sublist]
    intro a b hab hkeys
    have hrank := Enhancement.sameKeys_iff.1 hkeys
    have hrest := (hab.filter (fun x => decide (a.rank = x.rank))).trans
      (filter_rank_select c level a)
    rwa [List.filter_eq_self.2 (by simp [← hrank])] at hrest

/-- **Selections.**  What a catalogue answers is the one list that holds the modules of the level
once each, in the order of their ranks, and modules of one rank in the order in which they were
given. -/
theorem eq_select_iff (h : ofList ms = .ok c) (level : UInt8) (xs : List (Enhancement Float)) :
    xs = c.select level ↔ Selection ms level xs := by
  obtain ⟨hsound, hids, rfl⟩ := ofList_eq_ok_iff.1 h
  have hms : c.modules.Nodup := hids.of_map _
  have hnumbers : ∀ m ∈ c.modules, m.technical.isNaN = false := by
    intro m hm
    obtain ⟨-, -, -, hunit⟩ := (Enhancement.defect?_eq_none_iff m).1 (hsound m hm)
    exact Number.number_of_isFinite ((Config.isUnit_iff _).1 hunit).1
  have hselect := selection_select hms hnumbers level
  constructor
  · rintro rfl
    exact hselect
  · exact fun hxs => Selection.eq hms hnumbers hxs hselect

/-- modules of several ranks; those with no priority that are not universal stand there with equal
keys, and with technical weights that differ in the sign of a zero only -/
def assorted : List (Enhancement Float) := [
  plain "easing" 1 0.5 (-0.0) .motion,
  plain "shader" 2 0.5 0.25 .visual,
  plain "palette" 1 0.5 0.0 .visual,
  plain "grid" 1 0.25 (-0.0) .visual,
  ⟨"trace", 1, 0.5, 0.125, .interaction, false, some (-1)⟩,
  ⟨"budget", 3, 0.5, 0.125, .performance, true, none⟩,
  plain "physics" 3 0.5 1.0 .motion]

theorem eq_select_assorted : ofList assorted = .ok ⟨assorted⟩ ∧
    ["budget", "trace", "shader", "palette", "easing", "grid"] =
      ((Catalog.mk assorted).select 2).map (·.id) := by
  have h : ofList assorted = .ok ⟨assorted⟩ := by
    rw [ofList_eq_ok_iff]
    decide +kernel
  refine ⟨h, ?_⟩
  rw [← (eq_select_iff h 2 [assorted[5], assorted[4], assorted[1], assorted[2], assorted[0],
    assorted[3]]).2 (by decide +kernel)]
  rfl

end Catalog

end

end EffectFusion
