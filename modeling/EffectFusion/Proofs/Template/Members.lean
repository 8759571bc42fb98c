import EffectFusion.Proofs.Template.Recovery

/-!
# What a generated script assigns

The structured data of a fused essence stands in four statements, one for each member, and nothing
else in the script assigns to these members: the lines that scripts share are run through, and the
tokens of a value are no names of members.

* `pervades_without`     the lines that scripts share;
* `without_assignment`   the statements of other members;
* `valuesOf_written`     the tokens that are assigned to a member.
-/

namespace EffectFusion.Template

open Text Number Script

/-- members to which a script assigns structured data -/
def payloadMembers : List String :=
  ["originalEssence", "enhancedProperties", "moduleIntegrations", "evolution"]

section

variable {m n head : String} {body : List Block} {ts : List Token}

theorem without_close (m : String) : Without m [Token.mark "\x7d"] :=
  ⟨List.isChain_singleton _, by simp [Token.mark]⟩

theorem without_method (hhead : Without m (tokensOf (method head [])))
    (hbody : Without m (tokensOf body)) : Without m (tokensOf (method head body)) := by
  rw [tokensOf_method, tokensOf, List.append_nil] at hhead
  rw [tokensOf_method, lineTokens_close]
  exact (hhead.left.append hbody).append (without_close m)

theorem pervades_without (hm : m ∈ payloadMembers) : Pervades fun bs => Without m (tokensOf bs) where
  append h h' := by
    rw [tokensOf_append]
    exact h.append h'
  method := without_method
  animated a := by
    have hall : ∀ m ∈ payloadMembers, ∀ part ∈ animatedParts a, Without m (tokensOf part) := by
      cases a <;> decide +kernel
    exact hall m hm
  fixed := by
    have hall : ∀ m ∈ payloadMembers, ∀ part ∈ fixedParts, Without m (tokensOf part) := by
      decide +kernel
    exact hall m hm

theorem ordinary_ne_member {t : Token} (h : Ordinary t) (hm : m ∈ payloadMembers) :
    t ≠ .name m := by
  have hwords : ∀ m ∈ payloadMembers, m ∉ ["null", "true", "false"] ∧ m ≠ "NaN" ∧ m ≠ "inf" := by
    decide
  have hname : ∀ w, Token.name w = .name m → w = m :=
    fun w he => String.toList_inj.1 (congrArg Token.text he)
  rintro rfl
  rcases h with h | h | h
  · exact (hwords m hm).1 (Json.occurs_name h)
  · exact (hwords m hm).2.1 (hname _ h.symm).symm
  · exact (hwords m hm).2.2 (hname _ h.symm).symm

theorem without_assignment (hm : m ∈ payloadMembers) (hne : n ≠ m) (h : Assigned ts) :
    Without m (assignmentTokens n ts) := by
  have hthis : ∀ m ∈ payloadMembers, m ≠ "this" := by decide
  exact without_assigning (hthis m hm) hne fun t ht => ordinary_ne_member (h.ordinary t ht) hm

end

theorem without_closingTokens (f : FusedEssence Float) {m : String} (hm : m ∈ payloadMembers) :
    Without m (closingTokens f ++ lastTokens) := by
  have hlast : ∀ m ∈ payloadMembers, Without m lastTokens := by decide +kernel
  have hnumber : ∀ m ∈ payloadMembers, "fusionIntensity" ≠ m := by decide
  obtain ⟨ts, hts, hassigned, -⟩ := assigned_plain f.intensity
  have hintensity : Without m (tokensOf [.line (assignment "fusionIntensity" (plain f.intensity))]) := by
    rw [tokensOf_assignment (by decide) hts hassigned]
    exact without_assignment hm (hnumber m hm) hassigned
  have hpervades := pervades_without hm
  rw [closingTokens, lineTokens_close]
  exact (((hpervades.closingLines f hintensity).append (without_close m)).append (hpervades.middleMethods f)).append
    (hlast m hm)

theorem without_payloads {m : String} (hm : m ∈ payloadMembers) {ps : List (String × Json)}
    (h : ∀ p ∈ ps, p.1 ≠ m) :
    Without m (ps.flatMap (fun p => assignmentTokens p.1 (Json.tokens p.2))) :=
  Without.flatMap fun p hp => without_assignment hm (h p hp) (assigned_tokens p.2)

/-- each value is assigned once, and to its own member -/
theorem valuesOf_written (f : FusedEssence Float) {p : String × Json} (hp : p ∈ payloads f) :
    valuesOf p.1 (significant (lex (writeAll 0 (script f)))) = [Json.tokens p.2] := by
  have hmembers : (payloads f).map (·.1) = payloadMembers := rfl
  have hm : p.1 ∈ payloadMembers := hmembers ▸ List.mem_map_of_mem hp
  have hnodup : ((payloads f).map (·.1)).Nodup := by
    rw [hmembers]
    decide
  obtain ⟨before, after, hsplit, hbefore, hafter⟩ := exists_split hnodup hp
  have hopening : ∀ m ∈ payloadMembers, Without m openingTokens := by decide +kernel
  have hleft := (hopening p.1 hm).append (without_payloads hm hbefore)
  have hright := (without_payloads hm hafter).append (without_closingTokens f hm)
  have hdata : ∀ t ∈ Json.tokens p.2, t.isMark ";" = false ∧ t ≠ .name p.1 := by
    intro t ht
    have hoccurs := Json.occurs_tokens p.2 t ht
    exact ⟨Json.not_semicolon hoccurs, ordinary_ne_member (Or.inl hoccurs) hm⟩
  have hthis : ∀ m ∈ payloadMembers, m ≠ "this" := by decide
  have hscript : significant (lex (writeAll 0 (script f))) =
      (openingTokens ++ before.flatMap (fun p => assignmentTokens p.1 (Json.tokens p.2))) ++
        (assigning p.1 ++ (Json.tokens p.2 ++ .mark ";" ::
          (after.flatMap (fun p => assignmentTokens p.1 (Json.tokens p.2)) ++
            (closingTokens f ++ lastTokens)))) := by
    rw [significant_script, firstTokens_eq, hsplit]
    simp [assignmentTokens, assigning]
  rw [hscript]
  exact valuesOf_between (hthis p.1 hm) hleft hdata hright

end EffectFusion.Template
