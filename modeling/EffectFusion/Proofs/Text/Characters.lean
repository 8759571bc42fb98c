/-!
# Characters of texts

Facts about the characters of a fixed text are decided by evaluation, so both the list of the
characters and the quantifier over them are put in a form that takes few steps.

* `charsOf`   the characters from the bytes of the text.
-/

namespace EffectFusion.Text

/-- a property of the characters of a list is decided on the list, not on all characters -/
instance (priority := high) decidableInText {p : Char → Prop} [DecidablePred p] (s : List Char) :
    Decidable (∀ c ∈ s, p c) := List.decidableBAll p s

instance (priority := high) decidableInStart {p : Char → Prop} [DecidablePred p] (c : Option Char) :
    Decidable (∀ d ∈ c, p d) := Option.decidableForallMem c

/-- `String.toList` from the bytes of the text; it takes few steps to evaluate in a proof -/
def charsOf (s : String) : List Char :=
  let bs := s.toByteArray.data.toList
  if bs.all (fun b => b.toNat < 128) then bs.map (fun b => Char.ofNat b.toNat) else s.toList

theorem char_of_byte {c : Char} (h : ∀ b ∈ String.utf8EncodeChar c, b.toNat < 128) :
    (String.utf8EncodeChar c).map (fun b => Char.ofNat b.toNat) = [c] := by
  have hsmall : c.toNat < 128 := by
    apply Nat.lt_of_not_le
    intro hlarge
    have hlarge : ¬ c.val.toNat ≤ 127 := Nat.not_le_of_lt hlarge
    have hfirst : ∃ b ∈ String.utf8EncodeChar c, 128 ≤ b.toNat := by
      simp only [String.utf8EncodeChar, if_neg hlarge]
      split
      · exact ⟨_, List.mem_cons_self, by simp only [UInt8.toNat_ofNat']; omega⟩
      split
      · exact ⟨_, List.mem_cons_self, by simp only [UInt8.toNat_ofNat']; omega⟩
      · exact ⟨_, List.mem_cons_self, by simp only [UInt8.toNat_ofNat']; omega⟩
    obtain ⟨b, hb, hle⟩ := hfirst
    exact absurd (h b hb) (by omega)
  have hchar : String.utf8EncodeChar c = [UInt8.ofNat c.toNat] := by
    have hle : c.val.toNat ≤ 127 := Nat.le_of_lt_succ hsmall
    simp only [String.utf8EncodeChar, if_pos hle]
    rfl
  rw [hchar, List.map_singleton, UInt8.toNat_ofNat', Nat.mod_eq_of_lt (by omega), Char.ofNat_toNat]

theorem charsOf_eq (s : String) : charsOf s = s.toList := by
  have hbytes : s.toByteArray.data.toList = s.toList.flatMap String.utf8EncodeChar := by
    rw [← String.utf8Encode_toList, List.utf8Encode, List.toList_data_toByteArray]
  have hall : ∀ cs : List Char, (∀ b ∈ cs.flatMap String.utf8EncodeChar, b.toNat < 128) →
      (cs.flatMap String.utf8EncodeChar).map (fun b => Char.ofNat b.toNat) = cs := by
    intro cs h
    induction cs with
    | nil => rfl
    | cons c cs ih =>
      rw [List.flatMap_cons, List.forall_mem_append] at h
      rw [List.flatMap_cons, List.map_append, char_of_byte h.1, ih h.2, List.singleton_append]
  simp only [charsOf, hbytes]
  split
  · rename_i h
    refine hall s.toList (fun b hb => ?_)
    simpa using List.all_eq_true.1 h b hb
  · rfl

end EffectFusion.Text
