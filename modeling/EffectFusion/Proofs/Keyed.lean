import EffectFusion.Keyed
import Mathlib

/-!
# Reading finite maps

What is read under a name after an insertion (`get?_insert`), how many entries there are then
(`size_insert`), and what a map of a list holds: its entries come from the list
(`mem_entries_ofList`), its keys are those of the list (`mem_keys_ofList`), and when these are
different nothing is lost (`perm_ofList`).
-/

namespace EffectFusion

section Entries

variable {V : Type} {k k' : String} {v : V} {es : List (String × V)}

theorem find?_insertEntry_self :
    (insertEntry k v es).find? (fun e => e.1 = k) = some (k, v) := by
  induction es with
  | nil => simp [insertEntry]
  | cons e es ih =>
    unfold insertEntry
    split
    · simp
    · split
      · simp
      · rename_i hne
        have hne : ¬ e.1 = k := fun h => hne h.symm
        simp [hne, ih]

theorem find?_insertEntry_of_ne (h : k' ≠ k) :
    (insertEntry k v es).find? (fun e => e.1 = k') = es.find? (fun e => e.1 = k') := by
  induction es with
  | nil => simp [insertEntry, h.symm]
  | cons e es ih =>
    unfold insertEntry
    split
    · simp [h.symm]
    · split
      · rename_i he
        have hne : ¬ e.1 = k' := fun hk => h (hk.symm.trans he.symm)
        simp [h.symm, hne]
      · rw [List.find?_cons, List.find?_cons, ih]

theorem perm_insertEntry (h : ∀ e ∈ es, e.1 ≠ k) : (insertEntry k v es).Perm ((k, v) :: es) := by
  induction es with
  | nil => exact List.Perm.refl _
  | cons e es ih =>
    have hne : ¬ k = e.1 := fun hk => h e List.mem_cons_self hk.symm
    have ih := ih (fun f hf => h f (List.mem_cons_of_mem e hf))
    unfold insertEntry
    split
    · exact List.Perm.refl _
    · exact (ih.cons e).trans (List.Perm.swap _ _ _)

theorem length_insertEntry (h : ∀ e ∈ es, e.1 ≠ k) :
    (insertEntry k v es).length = es.length + 1 :=
  (perm_insertEntry h).length_eq

end Entries

namespace Keyed

variable {V W : Type} {m : Keyed V} {k : String} {v : V}

theorem get?_insert (m : Keyed V) (k : String) (v : V) (k' : String) :
    (m.insert k v).get? k' = if k' = k then some v else m.get? k' := by
  unfold get?
  rw [entries_insert]
  split
  · rename_i h
    rw [h, find?_insertEntry_self]
    rfl
  · rename_i h
    rw [find?_insertEntry_of_ne h]

theorem contains_iff : m.contains k = true ↔ ∃ v, m.get? k = some v := by
  unfold contains get?
  simp only [List.any_eq_true, decide_eq_true_eq, Option.map_eq_some_iff]
  constructor
  · rintro ⟨e, he, hk⟩
    have hsome : (m.entries.find? (fun e => e.1 = k)).isSome = true :=
      List.find?_isSome.2 ⟨e, he, by simpa using hk⟩
    obtain ⟨f, hf⟩ := Option.isSome_iff_exists.1 hsome
    exact ⟨f.2, f, hf, rfl⟩
  · rintro ⟨v, e, he, -⟩
    exact ⟨e, List.mem_of_find?_eq_some he, by simpa using List.find?_some he⟩

theorem not_contains_iff : m.contains k = false ↔ m.get? k = none := by
  rw [← Bool.not_eq_true, contains_iff, not_exists, Option.eq_none_iff_forall_ne_some]

theorem get?_insert_self (m : Keyed V) (k : String) (v : V) : (m.insert k v).get? k = some v := by
  rw [get?_insert, if_pos rfl]

/-- an entry under a name that was free covers no other -/
theorem get?_insert_of_free (h : m.contains k = false) (v : V) {k' : String} {w : V}
    (hget : m.get? k' = some w) : (m.insert k v).get? k' = some w := by
  have hne : k' ≠ k := by
    rintro rfl
    rw [not_contains_iff.1 h] at hget
    cases hget
  rw [get?_insert, if_neg hne, hget]

theorem mem_keys : k ∈ m.keys ↔ m.contains k = true := by
  simp [keys, contains]

theorem contains_insert (m : Keyed V) (k : String) (v : V) (k' : String) :
    (m.insert k v).contains k' = true ↔ k' = k ∨ m.contains k' = true := by
  rw [contains_iff, contains_iff, get?_insert]
  split
  · rename_i h
    exact ⟨fun _ => Or.inl h, fun _ => ⟨v, rfl⟩⟩
  · rename_i h
    exact ⟨Or.inr, fun hc => hc.resolve_left h⟩

theorem size_insert (h : m.contains k = false) (v : V) : (m.insert k v).size = m.size + 1 := by
  refine length_insertEntry (fun e he hk => ?_)
  have hc : m.contains k = true := List.any_eq_true.2 ⟨e, he, by simpa using hk⟩
  rw [h] at hc
  cases hc

theorem mem_entries_of_get? (h : m.get? k = some v) : (k, v) ∈ m.entries := by
  obtain ⟨e, he, rfl⟩ := Option.map_eq_some_iff.1 h
  have hk : e.1 = k := by simpa using List.find?_some he
  rw [← hk]
  exact List.mem_of_find?_eq_some he

theorem nodup_keys (m : Keyed V) : m.keys.Nodup := by
  unfold keys
  rw [List.Nodup, List.pairwise_map]
  refine m.ascending.imp fun {a b} hab he => ?_
  rw [he] at hab
  exact String.lt_irrefl b.1 hab

theorem get?_eq_some_iff : m.get? k = some v ↔ (k, v) ∈ m.entries := by
  refine ⟨mem_entries_of_get?, fun h => ?_⟩
  obtain ⟨w, hw⟩ := contains_iff.1 (List.any_eq_true.2 ⟨(k, v), h, decide_eq_true rfl⟩)
  have hsame := List.inj_on_of_nodup_map m.nodup_keys (mem_entries_of_get? hw) h rfl
  rw [hw, (Prod.mk.inj hsame).2]

/-! ### Maps of lists -/

theorem ofList_concat (es : List (String × V)) (e : String × V) :
    ofList (es ++ [e]) = (ofList es).insert e.1 e.2 := by
  unfold ofList
  rw [List.foldl_append]
  rfl

theorem mem_entries_ofList {es : List (String × V)} {e : String × V}
    (h : e ∈ (ofList es).entries) : e ∈ es := by
  induction es using List.reverseRecOn with
  | nil => cases h
  | append_singleton es f ih =>
    rw [ofList_concat, entries_insert] at h
    rcases mem_insertEntry h with rfl | h
    · simp
    · exact List.mem_append_left _ (ih h)

theorem mem_keys_ofList {es : List (String × V)} : k ∈ (ofList es).keys ↔ k ∈ es.map (·.1) := by
  induction es using List.reverseRecOn with
  | nil => exact iff_of_false (by simp [ofList, keys, empty]) (by simp)
  | append_singleton es f ih =>
    rw [ofList_concat, mem_keys, contains_insert, ← mem_keys, ih]
    simp [or_comm]

theorem perm_ofList {es : List (String × V)} (h : (es.map (·.1)).Nodup) :
    (ofList es).entries.Perm es := by
  induction es using List.reverseRecOn with
  | nil => exact List.Perm.refl _
  | append_singleton es f ih =>
    rw [List.map_append, List.nodup_append] at h
    obtain ⟨hes, -, hnew⟩ := h
    rw [ofList_concat, entries_insert]
    refine (perm_insertEntry fun e he => ?_).trans ?_
    · exact hnew _ (List.mem_map_of_mem (mem_entries_ofList he)) f.1 (by simp)
    · exact ((ih hes).cons f).trans (List.perm_append_singleton f es).symm

end Keyed

end EffectFusion
