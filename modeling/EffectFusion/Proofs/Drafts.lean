import EffectFusion.Proofs.Fusion

/-!
# What a draft is made of

A draft that succeeds holds the moderated blueprint, and all else in it is made from that
blueprint alone.  A draft that fails does so for an id exactly when the moderator answers that for
the blueprint it is given.
-/

namespace EffectFusion

section

variable {F : Type} [Scalar F] {catalog : Catalog F} {policies : PolicyTable F}

/-- the blueprint of a source at a level as the moderator is given it -/
def proposal (catalog : Catalog F) (policies : PolicyTable F) (source : List Char) (level : UInt8)
    (options : Options F) : Except FusionError (Blueprint F) := do
  let policy ← policies.get level
  options.check
  let essence := Essence.extract source
  pure (Blueprint.build essence (analyze essence (catalog.select level)) policy options)

theorem draftBlueprint_eq_bind (moderator : Moderator F) (source : List Char) (level : UInt8)
    (options : Options F) : draftBlueprint catalog policies moderator source level options =
      proposal catalog policies source level options >>= moderated moderator := by
  unfold draftBlueprint proposal
  cases policies.get level with
  | error e => rfl
  | ok p => cases options.check <;> rfl

theorem draftBlueprint_eq {level : UInt8} {p : LevelPolicy F} {options : Options F}
    (hget : policies.get level = .ok p) (hcheck : options.check = .ok ()) (moderator : Moderator F)
    (source : List Char) : draftBlueprint catalog policies moderator source level options =
      moderated moderator (Blueprint.build (Essence.extract source)
        (analyze (Essence.extract source) (catalog.select level)) p options) := by
  unfold draftBlueprint
  rw [hget, hcheck]
  rfl

end

/-! ### Ids that are taken -/

theorem reconstruct_ne_duplicateId (f : FusedEssence Float) (id : String) :
    reconstruct f ≠ .error (.duplicateId id) := by
  rw [reconstruct_eq]
  intro h
  unfold generate at h
  split at h <;> cases h

theorem proposal_ne_duplicateId (catalog : Catalog Float) (policies : PolicyTable Float)
    (source : List Char) (level : UInt8) (options : Options Float) (id : String) :
    proposal catalog policies source level options ≠ .error (.duplicateId id) := by
  intro h
  rcases bind_eq_error_iff.1 h with hlevel | ⟨p, -, h⟩
  · rcases policies.get_cases level with ⟨p, -, -, hget⟩ | ⟨-, hget⟩ <;> rw [hget] at hlevel <;>
      cases hlevel
  · rcases bind_eq_error_iff.1 h with hoptions | ⟨-, -, h⟩
    · rcases options.check_cases with ⟨-, hcheck⟩ | ⟨-, n, -, -, hcheck⟩ <;> rw [hcheck] at hoptions <;>
        cases hoptions
    · cases h

/-- a comparison of shapes has no such answer, so it is the moderator's -/
theorem moderated_duplicateId_iff {m : Moderator Float} {b : Blueprint Float} {id : String} :
    moderated m b = .error (.duplicateId id) ↔ m b = .error (.duplicateId id) := by
  refine ⟨fun h => ?_, fun h => bind_eq_error_iff.2 (Or.inl h)⟩
  rcases bind_eq_error_iff.1 h with hm | ⟨b', -, h⟩
  · exact hm
  · rcases bind_eq_error_iff.1 h with hverify | ⟨-, -, h⟩
    · unfold Shape.verify at hverify
      split at hverify <;> cases hverify
    · cases h

namespace Studio

variable {s : Studio} {source : List Char} {level : UInt8} {options : Options Float}

theorem made_of_draft {d : Draft} (h : s.draft source level options = .ok d) :
    draftBlueprint s.catalog s.policies s.moderator source level options = .ok d.blueprint ∧
      ∃ r, reconstruct (synthesize d.blueprint) = .ok r ∧ d.code = r.code ∧
        d.report = Report.of d.blueprint.essence d.blueprint r ∧
        d.summary = Summary.of (synthesize d.blueprint) := by
  obtain ⟨b, hb, h⟩ := bind_eq_ok_iff.1 h
  obtain ⟨r, hr, h⟩ := bind_eq_ok_iff.1 h
  obtain rfl := Except.ok.inj h
  exact ⟨hb, r, hr, rfl, rfl, rfl⟩

/-- only the moderator can make a draft fail for an id, and it does when it answers so -/
theorem draft_duplicateId_iff {id : String} :
    s.draft source level options = .error (.duplicateId id) ↔
      ∃ b, proposal s.catalog s.policies source level options = .ok b ∧
        s.moderator b = .error (.duplicateId id) := by
  constructor
  · intro h
    rcases bind_eq_error_iff.1 h with hb | ⟨b, -, h⟩
    · rw [draftBlueprint_eq_bind] at hb
      rcases bind_eq_error_iff.1 hb with hp | ⟨b, hp, hm⟩
      · exact absurd hp (proposal_ne_duplicateId _ _ _ _ _ id)
      · exact ⟨b, hp, moderated_duplicateId_iff.1 hm⟩
    · rcases bind_eq_error_iff.1 h with hr | ⟨r, -, h⟩
      · exact absurd hr (reconstruct_ne_duplicateId _ id)
      · cases h
  · rintro ⟨b, hp, hm⟩
    refine bind_eq_error_iff.2 (Or.inl ?_)
    rw [draftBlueprint_eq_bind]
    exact bind_eq_error_iff.2 (Or.inr ⟨b, hp, moderated_duplicateId_iff.2 hm⟩)

end Studio

end EffectFusion
