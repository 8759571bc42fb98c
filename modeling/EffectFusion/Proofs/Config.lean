import EffectFusion.Config
import Mathlib

/-!
# Which configurations are accepted

Four checks stand one behind the other: that of a policy, that of a table, that of a module and
that of a catalogue.  What each one lets pass is said by a lemma of its own, without the order in
which the faults are looked for.  A table finds repeated levels by comparing neighbours after a
sort; a strictly ascending list is the only one of its kind among the permutations of a list, so
the sort decides nothing but the order.

* `Catalog.ofList_eq_ok_iff`       a catalogue is made of sound modules with different ids;
* `firstRepeated?_eq_none_iff`     in a sorted list, no two neighbours are equal exactly when no two
                                   members are;
* `PolicyTable.ofList_eq_ok_iff`   a table holds sound policies in strictly ascending order;
* `Config.accepts_exactly_valid`   a configuration is accepted exactly when it is valid.
-/

namespace EffectFusion

section

variable {F : Type} [Scalar F]

/-! ### Modules and catalogues -/

theorem Enhancement.defect?_eq_none_iff (m : Enhancement F) :
    m.defect? = none ↔ isBlankText m.id = false ∧ m.level ≠ 0 ∧
      Scalar.isUnit m.creative = true ∧ Scalar.isUnit m.technical = true := by
  unfold defect?
  split_ifs <;> simp_all

namespace Catalog

/-- the ids before a list count as much as those in it -/
theorem defectFrom?_eq_none_iff {seen : List String} {ms : List (Enhancement F)} :
    defectFrom? seen ms = none ↔
      (∀ m ∈ ms, m.defect? = none ∧ m.id ∉ seen) ∧ (ms.map (·.id)).Nodup := by
  induction ms generalizing seen with
  | nil => simp [defectFrom?]
  | cons m ms ih =>
    unfold defectFrom?
    cases hm : m.defect? with
    | some d => simp [hm]
    | none =>
      by_cases hseen : m.id ∈ seen
      · simp [hseen]
      · simp only [List.contains_eq_mem, hseen, decide_false, Bool.false_eq_true, if_false, ih,
          List.map_cons, List.nodup_cons, List.mem_map, not_exists, not_and]
        rw [List.forall_mem_cons]
        constructor
        · rintro ⟨hrest, hnodup⟩
          refine ⟨⟨⟨hm, hseen⟩, fun x hx => ?_⟩, fun x hx => ?_, hnodup⟩
          · exact ⟨(hrest x hx).1, fun h => (hrest x hx).2 (List.mem_cons_of_mem _ h)⟩
          · exact fun h => (hrest x hx).2 (h ▸ List.mem_cons_self)
        · rintro ⟨⟨-, hrest⟩, hnew, hnodup⟩
          refine ⟨fun x hx => ⟨(hrest x hx).1, fun h => ?_⟩, hnodup⟩
          rcases List.mem_cons.1 h with h | h
          · exact hnew x hx h
          · exact (hrest x hx).2 h

theorem ofList_eq_ok_iff {ms : List (Enhancement F)} {c : Catalog F} :
    ofList ms = .ok c ↔
      (∀ m ∈ ms, m.defect? = none) ∧ (ms.map (·.id)).Nodup ∧ c.modules = ms := by
  have hnone : defectFrom? [] ms = none ↔
      (∀ m ∈ ms, m.defect? = none) ∧ (ms.map (·.id)).Nodup := by
    rw [defectFrom?_eq_none_iff]
    simp only [List.not_mem_nil, not_false_eq_true, and_true]
  unfold ofList
  cases hdefect : defectFrom? [] ms with
  | some d =>
    rw [hdefect] at hnone
    simp only [reduceCtorEq, false_iff] at hnone ⊢
    exact fun h => hnone ⟨h.1, h.2.1⟩
  | none =>
    obtain ⟨hsound, hids⟩ := hnone.1 hdefect
    constructor
    · intro h
      cases h
      exact ⟨hsound, hids, rfl⟩
    · rintro ⟨-, -, rfl⟩
      rfl

theorem select_of_covered {c : Catalog F} {level : UInt8}
    (h : ∀ m ∈ c.modules, m.level ≤ level) : (c.select level).Perm c.modules := by
  have hall : c.modules.filter (fun m => m.activeAt level) = c.modules := by
    rw [List.filter_eq_self]
    intro m hm
    simp [Enhancement.activeAt, h m hm]
  have hperm := c.select_perm level
  rwa [hall] at hperm

end Catalog

/-! ### Policies and tables -/

theorem LevelPolicy.defect?_eq_none_iff (p : LevelPolicy F) :
    p.defect? = none ↔ Scalar.isUnit p.intensity = true ∧ Scalar.isUnit p.creativity = true ∧
      Scalar.isUnit p.technical = true := by
  unfold defect?
  split_ifs <;> simp_all

end

/-- comparing neighbours is enough in a sorted list -/
theorem firstRepeated?_eq_none_iff {ls : List UInt8} (h : ls.Pairwise (· ≤ ·)) :
    firstRepeated? ls = none ↔ ls.Pairwise (· < ·) := by
  induction ls with
  | nil => simp [firstRepeated?]
  | cons a ls ih =>
    cases ls with
    | nil => simp [firstRepeated?]
    | cons b rest =>
      obtain ⟨ha, hrest⟩ := List.pairwise_cons.1 h
      have hb := List.pairwise_cons.1 hrest
      unfold firstRepeated?
      by_cases heq : a = b
      · subst heq
        simp
      · rw [if_neg heq, ih hrest, List.pairwise_cons (a := a)]
        have hlt : a < b := UInt8.lt_of_le_of_ne (ha b List.mem_cons_self) heq
        refine ⟨fun hpairs => ⟨?_, hpairs⟩, fun hpairs => hpairs.2⟩
        intro x hx
        rcases List.mem_cons.1 hx with rfl | hx
        · exact hlt
        · exact UInt8.lt_of_lt_of_le hlt (hb.1 x hx)

namespace PolicyTable

section

variable {F : Type}

/-- policies in strictly ascending order of their levels -/
def Ascending (ps : List (LevelPolicy F)) : Prop := ps.Pairwise (fun p q => p.level < q.level)

theorem Ascending.eq_of_perm {ps qs : List (LevelPolicy F)} (hps : Ascending ps)
    (hqs : Ascending qs) (h : ps.Perm qs) : ps = qs := by
  apply h.eq_of_pairwise _ hps hqs
  intro p q _ _ hpq hqp
  exact absurd hqp (UInt8.lt_asymm hpq)

theorem Ascending.nodup {ps : List (LevelPolicy F)} (h : Ascending ps) :
    (ps.map (·.level)).Nodup := by
  apply List.Pairwise.map _ _ h
  intro p q hlt
  exact UInt8.ne_of_lt hlt

/-- policies in the order in which a table is searched for repeated levels -/
def sorted (ps : List (LevelPolicy F)) : List (LevelPolicy F) :=
  ps.mergeSort (fun p q => p.level ≤ q.level)

theorem sorted_perm (ps : List (LevelPolicy F)) : (sorted ps).Perm ps := List.mergeSort_perm ps _

theorem pairwise_sorted (ps : List (LevelPolicy F)) :
    (sorted ps).Pairwise (fun p q => p.level ≤ q.level) := by
  apply List.Pairwise.imp of_decide_eq_true
  apply List.pairwise_mergeSort
  · intro p q r hpq hqr
    rw [decide_eq_true_eq] at hpq hqr ⊢
    exact UInt8.le_trans hpq hqr
  · intro p q
    rw [Bool.or_eq_true, decide_eq_true_eq, decide_eq_true_eq]
    exact UInt8.le_total p.level q.level

/-- the sort of policies shows whether their levels differ -/
theorem firstRepeated?_sorted (ps : List (LevelPolicy F)) :
    firstRepeated? ((sorted ps).map (·.level)) = none ↔ Ascending (sorted ps) := by
  rw [firstRepeated?_eq_none_iff (List.pairwise_map.2 (pairwise_sorted ps)), List.pairwise_map]
  rfl

theorem ascending_sorted {ps : List (LevelPolicy F)} (h : (ps.map (·.level)).Nodup) :
    Ascending (sorted ps) := by
  have hnodup : ((sorted ps).map (·.level)).Nodup := ((sorted_perm ps).map _).nodup_iff.2 h
  have hne : (sorted ps).Pairwise (fun p q => p.level ≠ q.level) := List.pairwise_map.1 hnodup
  exact (pairwise_sorted ps).imp₂ (fun _ _ hle hne => UInt8.lt_of_le_of_ne hle hne) hne

theorem get_cases (t : PolicyTable F) (level : UInt8) :
    (∃ p ∈ t.policies, p.level = level ∧ t.get level = .ok p) ∨
      (∀ p ∈ t.policies, p.level ≠ level) ∧ t.get level = .error (.unknownLevel level t.levels) := by
  unfold get
  cases hfind : t.policies.find? (fun p => p.level = level) with
  | some p =>
    exact Or.inl ⟨p, List.mem_of_find?_eq_some hfind, by simpa using List.find?_some hfind, rfl⟩
  | none => exact Or.inr ⟨by simpa using hfind, rfl⟩

/-- an ascending table has each of its policies at the policy's own level -/
theorem get_eq_ok_iff {t : PolicyTable F} (h : Ascending t.policies) {level : UInt8}
    {p : LevelPolicy F} : t.get level = .ok p ↔ p ∈ t.policies ∧ p.level = level := by
  rcases t.get_cases level with ⟨q, hq, hlevel, hget⟩ | ⟨hnone, hget⟩
  · rw [hget, Except.ok.injEq]
    constructor
    · rintro rfl
      exact ⟨hq, hlevel⟩
    · rintro ⟨hp, hp'⟩
      exact List.inj_on_of_nodup_map h.nodup hq hp (hlevel.trans hp'.symm)
  · rw [hget]
    simp only [reduceCtorEq, false_iff, not_and]
    exact hnone p

/-- what the search for the highest level returns when it starts from a level -/
theorem foldl_max (ps : List (LevelPolicy F)) (n : UInt8) :
    let highest := ps.foldl (fun n p => if n < p.level then p.level else n) n
    n ≤ highest ∧ (∀ p ∈ ps, p.level ≤ highest) ∧
      (highest = n ∨ ∃ p ∈ ps, p.level = highest) := by
  induction ps generalizing n with
  | nil => simp
  | cons p ps ih =>
    obtain ⟨hstart, hupper, hfound⟩ := ih (if n < p.level then p.level else n)
    simp only [List.foldl_cons, List.forall_mem_cons, List.exists_mem_cons_iff]
    split_ifs at hstart hupper hfound ⊢ with hlt
    · refine ⟨UInt8.le_trans (UInt8.le_of_lt hlt) hstart, ⟨hstart, hupper⟩, Or.inr ?_⟩
      rcases hfound with hp | hp
      · exact Or.inl hp.symm
      · exact Or.inr hp
    · refine ⟨hstart, ⟨UInt8.le_trans (UInt8.not_lt.1 hlt) hstart, hupper⟩, ?_⟩
      rcases hfound with hn | hp
      · exact Or.inl hn
      · exact Or.inr (Or.inr hp)

theorem le_maxLevel {t : PolicyTable F} : ∀ p ∈ t.policies, p.level ≤ t.maxLevel :=
  (foldl_max t.policies 0).2.1

theorem exists_maxLevel {t : PolicyTable F} (h : t.policies ≠ []) :
    ∃ p ∈ t.policies, p.level = t.maxLevel := by
  rcases (foldl_max t.policies 0).2.2 with hzero | hfound
  · -- the search may start and end at zero, and then every policy is of level zero
    obtain ⟨p, hp⟩ := List.exists_mem_of_ne_nil _ h
    refine ⟨p, hp, ?_⟩
    have hle : p.level ≤ t.maxLevel := le_maxLevel p hp
    have hzero : t.maxLevel = 0 := hzero
    rw [hzero] at hle ⊢
    exact UInt8.le_zero_iff.1 hle
  · exact hfound

end

section

variable {F : Type} [Scalar F]

/-- a table is the one strictly ascending order of sound policies -/
theorem ofList_eq_ok_iff {ps : List (LevelPolicy F)} {t : PolicyTable F} :
    ofList ps = .ok t ↔ ps ≠ [] ∧ (∀ p ∈ ps, p.defect? = none) ∧ t.policies.Perm ps ∧
      Ascending t.policies := by
  unfold ofList
  rw [show ps.mergeSort (fun p q => p.level ≤ q.level) = sorted ps from rfl]
  cases hdefect : ps.findSome? LevelPolicy.defect? with
  | some d =>
    have hnot : ¬ ∀ p ∈ ps, p.defect? = none := by
      rw [← List.findSome?_eq_none_iff, hdefect]
      simp
    split_ifs <;> simp [hnot]
  | none =>
    have hsound := List.findSome?_eq_none_iff.1 hdefect
    by_cases hnil : ps = []
    · simp [hnil]
    simp only [List.isEmpty_iff, hnil, if_false, ne_eq, not_false_eq_true, true_and]
    cases hrepeated : firstRepeated? ((sorted ps).map (·.level)) with
    | some level =>
      -- with a table at hand the levels differ, and then the sort finds none repeated
      simp only [reduceCtorEq, false_iff]
      rintro ⟨-, htable, hascending⟩
      have hsorted := ascending_sorted ((htable.map _).nodup_iff.1 hascending.nodup)
      rw [(firstRepeated?_sorted ps).2 hsorted] at hrepeated
      cases hrepeated
    | none =>
      have hsorted := (firstRepeated?_sorted ps).1 hrepeated
      constructor
      · intro h
        cases h
        exact ⟨hsound, sorted_perm ps, hsorted⟩
      · rintro ⟨-, htable, hascending⟩
        rw [hsorted.eq_of_perm hascending ((sorted_perm ps).trans htable.symm)]

theorem ofList_of_nodup {ps : List (LevelPolicy F)} (hne : ps ≠ [])
    (hsound : ∀ p ∈ ps, p.defect? = none) (hlevels : (ps.map (·.level)).Nodup) :
    ∃ t, ofList ps = .ok t :=
  ⟨⟨sorted ps⟩, ofList_eq_ok_iff.2 ⟨hne, hsound, sorted_perm ps, ascending_sorted hlevels⟩⟩

theorem top_of_ofList {ps : List (LevelPolicy F)} {t : PolicyTable F}
    (h : ofList ps = .ok t) :
    ∃ top ∈ ps, top.level = t.maxLevel ∧ ∀ p ∈ ps, p.level ≤ top.level := by
  obtain ⟨hne, -, hperm, -⟩ := ofList_eq_ok_iff.1 h
  have hpolicies : t.policies ≠ [] := by
    intro hnil
    apply hne
    rwa [hnil, List.nil_perm] at hperm
  obtain ⟨top, htop, hlevel⟩ := exists_maxLevel hpolicies
  refine ⟨top, hperm.mem_iff.1 htop, hlevel, ?_⟩
  intro p hp
  rw [hlevel]
  exact le_maxLevel p (hperm.mem_iff.2 hp)

end

end PolicyTable

/-! ### Configurations -/

namespace Config

section

variable {F : Type} [Scalar F]

/-- the parts of an accepted configuration, in any order of the checks -/
theorem parts_eq_ok_iff {c : Config F} {catalog : Catalog F} {table : PolicyTable F} :
    c.parts = .ok (catalog, table) ↔ PolicyTable.ofList c.levels = .ok table ∧
      (∀ m ∈ c.modules, m.level ≤ table.maxLevel) ∧ Catalog.ofList c.modules = .ok catalog := by
  unfold parts
  cases htable : PolicyTable.ofList c.levels with
  | error e => simp
  | ok t =>
    simp only [Except.ok.injEq]
    cases hfind : c.modules.find? (fun m => t.maxLevel < m.level) with
    | some m =>
      have hm : t.maxLevel < m.level := by simpa using List.find?_some hfind
      simp only [reduceCtorEq, false_iff]
      rintro ⟨rfl, hcovered, -⟩
      exact absurd (hcovered m (List.mem_of_find?_eq_some hfind)) (UInt8.not_le.2 hm)
    | none =>
      have hcovered : ∀ m ∈ c.modules, m.level ≤ t.maxLevel := by simpa using hfind
      cases hcatalog : Catalog.ofList c.modules with
      | error e => simp
      | ok k =>
        simp only [Except.ok.injEq, Prod.mk.injEq]
        constructor
        · rintro ⟨rfl, rfl⟩
          exact ⟨rfl, hcovered, rfl⟩
        · rintro ⟨rfl, -, rfl⟩
          exact ⟨rfl, rfl⟩

theorem check_eq_ok_iff {c : Config F} :
    c.check = .ok () ↔ ∃ catalog table, c.parts = .ok (catalog, table) := by
  unfold check
  cases hparts : c.parts with
  | error e => simp [Except.map]
  | ok parts => simpa [Except.map] using ⟨parts.1, parts.2, rfl⟩

theorem sound_of_parts {c : Config F} {catalog : Catalog F} {table : PolicyTable F}
    (h : c.parts = .ok (catalog, table)) :
    (catalog.modules = c.modules ∧ ∀ m ∈ c.modules, m.defect? = none) ∧
      table.policies.Perm c.levels ∧ ∀ p ∈ c.levels, p.defect? = none := by
  obtain ⟨htable, -, hcatalog⟩ := parts_eq_ok_iff.1 h
  obtain ⟨hmodules, -, hsame⟩ := Catalog.ofList_eq_ok_iff.1 hcatalog
  obtain ⟨-, hpolicies, hperm, -⟩ := PolicyTable.ofList_eq_ok_iff.1 htable
  exact ⟨⟨hsame, hmodules⟩, hperm, hpolicies⟩

theorem parts_of_perm {c : Config F} {catalog : Catalog F} {table : PolicyTable F}
    (h : c.parts = .ok (catalog, table)) {levels : List (LevelPolicy F)}
    (hlevels : levels.Perm c.levels) :
    (Config.mk c.modules levels).parts = .ok (catalog, table) := by
  obtain ⟨htable, hcovered, hcatalog⟩ := parts_eq_ok_iff.1 h
  obtain ⟨hne, hsound, hperm, hascending⟩ := PolicyTable.ofList_eq_ok_iff.1 htable
  refine parts_eq_ok_iff.2 ⟨PolicyTable.ofList_eq_ok_iff.2 ⟨?_, ?_, ?_, hascending⟩, hcovered,
    hcatalog⟩
  · intro hnil
    apply hne
    rw [← List.perm_nil, ← hnil]
    exact hlevels.symm
  · exact fun p hp => hsound p (hlevels.mem_iff.1 hp)
  · exact hperm.trans hlevels.symm

end

/-! ### Valid configurations -/

/-- a finite number from zero to one -/
def InUnit (v : Float) : Prop := v.isFinite = true ∧ 0.0 ≤ v ∧ v ≤ 1.0

instance (v : Float) : Decidable (InUnit v) := inferInstanceAs (Decidable (_ ∧ _ ∧ _))

theorem isUnit_iff (v : Float) : Scalar.isUnit v = true ↔ InUnit v := by
  show (v.isFinite && decide (0.0 ≤ v) && decide (v ≤ 1.0)) = true ↔ InUnit v
  simp only [InUnit, Bool.and_eq_true, decide_eq_true_eq, and_assoc]

theorem isBlankText_eq_false_iff (s : String) :
    isBlankText s = false ↔ ∃ ch ∈ s.toList, Text.isBlank ch = false := by
  simp [isBlankText]

/-- what is asked of a configuration -/
structure Valid (c : Config Float) : Prop where
  levels : c.levels ≠ []
  differentLevels : (c.levels.map (·.level)).Nodup
  coefficients : ∀ p ∈ c.levels, InUnit p.intensity ∧ InUnit p.creativity ∧ InUnit p.technical
  ids : ∀ m ∈ c.modules, ∃ ch ∈ m.id.toList, Text.isBlank ch = false
  covered : ∀ m ∈ c.modules, 1 ≤ m.level ∧ ∃ p ∈ c.levels, m.level ≤ p.level
  weights : ∀ m ∈ c.modules, InUnit m.creative ∧ InUnit m.technical
  differentIds : (c.modules.map (·.id)).Nodup

theorem valid_of_parts {c : Config Float} {catalog : Catalog Float} {table : PolicyTable Float}
    (h : c.parts = .ok (catalog, table)) : c.Valid := by
  obtain ⟨htable, hcovered, hcatalog⟩ := parts_eq_ok_iff.1 h
  obtain ⟨hne, hpolicies, hperm, hascending⟩ := PolicyTable.ofList_eq_ok_iff.1 htable
  obtain ⟨hmodules, hids, -⟩ := Catalog.ofList_eq_ok_iff.1 hcatalog
  simp only [LevelPolicy.defect?_eq_none_iff, isUnit_iff] at hpolicies
  simp only [Enhancement.defect?_eq_none_iff, isUnit_iff, isBlankText_eq_false_iff] at hmodules
  obtain ⟨top, htop, hlevel, -⟩ := PolicyTable.top_of_ofList htable
  refine ⟨hne, (hperm.map _).nodup_iff.1 hascending.nodup, hpolicies, ?_, ?_, ?_, hids⟩
  · exact fun m hm => (hmodules m hm).1
  · intro m hm
    have hnot := (hmodules m hm).2.1
    refine ⟨by grind, top, htop, ?_⟩
    rw [hlevel]
    exact hcovered m hm
  · exact fun m hm => (hmodules m hm).2.2

theorem parts_of_valid {c : Config Float} (h : c.Valid) :
    ∃ catalog table, c.parts = .ok (catalog, table) := by
  have hpolicies : ∀ p ∈ c.levels, p.defect? = none := by
    simp only [LevelPolicy.defect?_eq_none_iff, isUnit_iff]
    exact h.coefficients
  have hmodules : ∀ m ∈ c.modules, m.defect? = none := by
    intro m hm
    rw [Enhancement.defect?_eq_none_iff, isUnit_iff, isUnit_iff, isBlankText_eq_false_iff]
    refine ⟨h.ids m hm, ?_, h.weights m hm⟩
    intro hzero
    have hone := (h.covered m hm).1
    rw [hzero] at hone
    exact absurd hone (by decide)
  obtain ⟨table, htable⟩ := PolicyTable.ofList_of_nodup h.levels hpolicies h.differentLevels
  obtain ⟨-, -, hperm, -⟩ := PolicyTable.ofList_eq_ok_iff.1 htable
  refine ⟨⟨c.modules⟩, table, parts_eq_ok_iff.2 ⟨htable, ?_, ?_⟩⟩
  · intro m hm
    obtain ⟨-, p, hp, hle⟩ := h.covered m hm
    exact UInt8.le_trans hle (PolicyTable.le_maxLevel p (hperm.mem_iff.2 hp))
  · exact Catalog.ofList_eq_ok_iff.2 ⟨hmodules, h.differentIds, rfl⟩

/-- **Exactly the valid configurations are accepted.**  An accepted one keeps its modules in their
order.  Its table holds its policies in the one strictly ascending order, so that it does not
depend on the order in which they were given, and finds a policy for exactly the levels that have
one.  At the highest of them every module is selected. -/
theorem accepts_exactly_valid (c : Config Float) :
    (c.check = .ok () ↔ c.Valid) ∧
    (c.check = .ok () → ∃ catalog table, c.parts = .ok (catalog, table) ∧
      catalog.modules = c.modules ∧
      table.policies.Perm c.levels ∧ PolicyTable.Ascending table.policies ∧
      (∀ levels : List (LevelPolicy Float), levels.Perm c.levels →
        (Config.mk c.modules levels).parts = .ok (catalog, table)) ∧
      (∀ level p, table.get level = .ok p ↔ p ∈ c.levels ∧ p.level = level) ∧
      ∃ top ∈ c.levels, (∀ p ∈ c.levels, p.level ≤ top.level) ∧
        (catalog.select top.level).Perm c.modules) := by
  refine ⟨?_, ?_⟩
  · rw [check_eq_ok_iff]
    constructor
    · rintro ⟨catalog, table, hparts⟩
      exact valid_of_parts hparts
    · exact parts_of_valid
  · intro hcheck
    obtain ⟨catalog, table, hparts⟩ := check_eq_ok_iff.1 hcheck
    obtain ⟨htable, hcovered, hcatalog⟩ := parts_eq_ok_iff.1 hparts
    obtain ⟨-, -, hperm, hascending⟩ := PolicyTable.ofList_eq_ok_iff.1 htable
    obtain ⟨-, -, hmodules⟩ := Catalog.ofList_eq_ok_iff.1 hcatalog
    refine ⟨catalog, table, hparts, hmodules, hperm, hascending, ?_, ?_, ?_⟩
    · exact fun levels hlevels => parts_of_perm hparts hlevels
    · intro level p
      rw [PolicyTable.get_eq_ok_iff hascending, hperm.mem_iff]
    · obtain ⟨top, htop, hlevel, hhighest⟩ := PolicyTable.top_of_ofList htable
      refine ⟨top, htop, hhighest, ?_⟩
      rw [hlevel, ← hmodules]
      apply Catalog.select_of_covered
      rw [hmodules]
      exact hcovered

/-- three modules and two levels, the higher one given first -/
def pair : Config Float :=
  ⟨[Catalog.plain "color_theory" 1 0.7 0.3 .visual,
      Catalog.plain "shader_library" 2 0.7 0.85 .visual,
      ⟨"contextual_harmony", 2, 0.5, 0.5, .harmony, true, some 10⟩],
    [⟨2, .balanced, 0.6, 0.6, 0.5⟩, ⟨1, .conservative, 0.3, 0.4, 0.6⟩]⟩

theorem valid_pair : pair.Valid where
  levels := by decide
  differentLevels := by decide
  coefficients := by decide +kernel
  ids := by
    simp only [← isBlankText_eq_false_iff]
    decide +kernel
  covered := by decide
  weights := by decide +kernel
  differentIds := by decide +kernel

theorem accepts_exactly_valid_pair :
    pair.check = .ok () ∧ ∃ catalog table, pair.parts = .ok (catalog, table) ∧
      catalog.modules = pair.modules ∧ PolicyTable.Ascending table.policies := by
  obtain ⟨hiff, hparts⟩ := accepts_exactly_valid pair
  have hcheck : pair.check = .ok () := hiff.2 valid_pair
  obtain ⟨catalog, table, hok, hmodules, -, hascending, -⟩ := hparts hcheck
  exact ⟨hcheck, catalog, table, hok, hmodules, hascending⟩

end Config

end EffectFusion
