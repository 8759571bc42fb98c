import EffectFusion.Proofs.Session

/-!
# The sequence of a history

A history that is only written by fusions, all with ids from the history, holds records under the
numbers drawn so far and under no other id.  So the next number is free, whatever else the studios
that write to it do.
-/

namespace EffectFusion

theorem numberedId_injective {m n : Nat} (h : numberedId m = numberedId n) : m = n :=
  Nat.repr_injective ((String.append_right_inj "fusion-").1 h)

/-! ### Studios without a generator -/

namespace Studio

variable {s : Studio} (hids : s.ids = none) (h : History)
include hids

theorem drawId_of_none : s.drawId h = (h.nextId.1, s, h.nextId.2) := by
  unfold drawId
  rw [hids]

theorem nextId_of_none : s.nextId h = numberedId (h.drawn + 1) :=
  congrArg Prod.fst (drawId_of_none hids h)

theorem afterId_of_none : s.afterId h = s := congrArg (·.2.1) (drawId_of_none hids h)

theorem historyAfterId_of_none : s.historyAfterId h = h.nextId.2 :=
  congrArg (·.2.2) (drawId_of_none hids h)

end Studio

/-! ### Plain histories -/

namespace History

/-- histories that only studios without a generator write to, fusion after fusion -/
inductive Plain : History → Prop
  | empty : Plain empty
  | fuse {h : History} (s : Studio) (source : List Char) (level : UInt8) (options : Options Float) :
      s.ids = none → Plain h → Plain (s.fuse h source level options).2.2
  | nextId {h : History} : Plain h → Plain h.nextId.2

/-- all ids are numbers that have been drawn -/
def Numbered (h : History) : Prop :=
  ∀ id, h.records.contains id = true → ∃ n ≤ h.drawn, id = numberedId n

theorem contains_nextId {h : History} (hn : h.Numbered) : h.records.contains h.nextId.1 = false := by
  rw [← Bool.not_eq_true]
  intro hc
  obtain ⟨n, hle, hid⟩ := hn _ hc
  have heq : h.drawn + 1 = n := numberedId_injective hid
  omega

theorem numbered_nextId {h : History} (hn : h.Numbered) : h.nextId.2.Numbered := by
  intro id hc
  obtain ⟨n, hle, hid⟩ := hn id hc
  exact ⟨n, Nat.le_succ_of_le hle, hid⟩

theorem numbered_fuse {h : History} {s : Studio} (hids : s.ids = none) (hn : h.Numbered)
    (source : List Char) (level : UInt8) (options : Options Float) :
    (s.fuse h source level options).2.2.Numbered := by
  have hafter : s.historyAfterId h = h.nextId.2 := Studio.historyAfterId_of_none hids h
  rcases s.fuse_cases h source level options with ⟨e, -, hf⟩ | ⟨d, -, -, hf⟩ | ⟨d, -, hfree, hf⟩
  · rw [hf]
    exact hn
  · rw [hf, hafter]
    exact numbered_nextId hn
  · rw [hf, hafter, Studio.nextId_of_none hids]
    intro id hc
    rcases (Keyed.contains_insert _ _ _ id).1 hc with hnew | hold
    · exact ⟨h.drawn + 1, le_rfl, hnew⟩
    · exact numbered_nextId hn id hold

theorem numbered_of_plain {h : History} (hp : h.Plain) : h.Numbered := by
  induction hp with
  | empty => exact fun id hc => by cases hc
  | fuse s source level options hids _ ih => exact numbered_fuse hids ih source level options
  | nextId _ ih => exact numbered_nextId ih

end History

namespace Studio

/-- with ids from a plain history a fusion is its draft under the next number -/
theorem fuse_of_plain {s : Studio} {h : History} (hids : s.ids = none) (hp : h.Plain)
    (source : List Char) (level : UInt8) (options : Options Float) :
    (s.fuse h source level options).1 =
      (s.draft source level options).map (fun d => (d.record h.nextId.1).artifact) := by
  have hid : s.nextId h = h.nextId.1 := nextId_of_none hids h
  have hfree := History.contains_nextId (History.numbered_of_plain hp)
  rcases s.fuse_cases h source level options with ⟨e, hd, hf⟩ | ⟨d, -, htaken, -⟩ | ⟨d, hd, -, hf⟩
  · rw [hf, hd]
    rfl
  · rw [hid, hfree] at htaken
    cases htaken
  · rw [hf, hd, hid]
    rfl

end Studio

end EffectFusion
