import EffectFusion.Proofs.Drafts
import EffectFusion.Proofs.Threads

/-!
# A record can be made again from its blueprint

A fusion stores the blueprint as the moderator left it, and that blueprint is all that the rest of
the record depends on: who synthesizes and reconstructs it again gets the code, the report and the
summary that were stored, with the measures in the report those of the code.  This holds of each
record that a fusion stores, at every moment of a run with any studios, generators and moderators,
with fusions that overlap and with records of others in the same history.

* `reproducible_of_draft`            a draft under any id;
* `Faithful.effect`, `Faithful.run`  the drafts that threads work on;
* `stored_fusions_reproducible`      the records of a history.
-/

namespace EffectFusion

/-- the artifact of a record is what comes of its blueprint -/
structure Record.Reproducible (r : Record) : Prop where
  remade : ∃ made, reconstruct (synthesize r.blueprint) = .ok made ∧
    r.artifact.code = made.code ∧
    r.artifact.report = Report.of r.blueprint.essence r.blueprint made
  summary : r.artifact.summary = Summary.of (synthesize r.blueprint)
  fingerprint : r.artifact.report.metrics.fingerprint =
    Fingerprint.hex (Fingerprint.ofText (String.ofList r.artifact.code))
  bytes : r.artifact.report.metrics.compressedBytes = (String.ofList r.artifact.code).utf8ByteSize
  no_longer : r.artifact.report.metrics.compressedBytes ≤ r.artifact.report.metrics.generatedBytes
  modules : r.artifact.report.contributions.map (·.moduleId) = r.blueprint.moduleIds

/-! ### Drafts -/

theorem byteLength_reconstruct_le {f : FusedEssence Float} {made : Reconstruction}
    (h : reconstruct f = .ok made) :
    Script.byteLength made.code ≤ Script.byteLength made.generated := by
  rw [reconstruct_eq] at h
  cases hgenerate : generate f with
  | error e =>
    rw [hgenerate] at h
    cases h
  | ok generated =>
    rw [hgenerate] at h
    obtain rfl := Except.ok.inj h
    exact Script.byteLength_throughAll_le (fun _ hp => Script.byteLength_pass_le hp) generated

theorem reproducible_of_draft {s : Studio} {source : List Char} {level : UInt8}
    {options : Options Float} {d : Draft} (h : s.draft source level options = .ok d)
    (id : String) : (d.record id).Reproducible := by
  obtain ⟨-, made, hmade, hcode, hreport, hsummary⟩ := Studio.made_of_draft h
  refine ⟨⟨made, hmade, hcode, hreport⟩, hsummary, ?_, ?_, ?_, ?_⟩
  · show d.report.metrics.fingerprint = Fingerprint.hex (Fingerprint.ofText (String.ofList d.code))
    rw [hreport, hcode]
    rfl
  · show d.report.metrics.compressedBytes = (String.ofList d.code).utf8ByteSize
    rw [hreport, hcode]
    exact Script.byteLength_eq_utf8ByteSize made.code
  · show d.report.metrics.compressedBytes ≤ d.report.metrics.generatedBytes
    rw [hreport]
    exact byteLength_reconstruct_le hmade
  · show d.report.contributions.map (·.moduleId) = d.blueprint.moduleIds
    rw [hreport]
    show (d.blueprint.modules.map Report.contributionOf).map (·.moduleId) = _
    rw [List.map_map]
    rfl

/-! ### Threads -/

namespace Threads

variable {ι τ : Type} [DecidableEq ι] [DecidableEq τ]

/-- whatever the threads work on makes records that can be made again -/
def Faithful (c : Threads ι τ) : Prop :=
  ∀ t d, (c.stage t).draft? = some d → ∀ id, (d.record id).Reproducible

omit [DecidableEq ι] [DecidableEq τ] in
theorem faithful_fresh (studios : ι → Studio) : (fresh studios : Threads ι τ).Faithful := by
  intro t d h
  cases h

variable {c c' : Threads ι τ} {m : Move ι τ} {es : List Event}

omit [DecidableEq ι] in
theorem Faithful.update (hc : c.Faithful) (t : τ) {g : Stage ι}
    (hg : ∀ d, g.draft? = some d → ∀ id, (d.record id).Reproducible) (u : τ) (d : Draft)
    (h : (Function.update c.stage t g u).draft? = some d) (id : String) :
    (d.record id).Reproducible := by
  rw [Function.update_apply] at h
  split at h
  · exact hg d h id
  · exact hc u d h id

theorem Faithful.effect (hc : c.Faithful) (h : Effect c m es c') : c'.Faithful := by
  cases h with
  | busy | refused | resting | skipped | rejected | inserted | bound => exact hc
  | drafted _ hd =>
    refine hc.update _ (fun d h => ?_)
    cases h
    exact reproducible_of_draft hd
  | @drew t i d ht =>
    refine hc.update t (fun d h => hc t d ?_)
    rw [ht]
    exact h
  | taken | stored => exact hc.update _ (fun d h => by cases h)

theorem Faithful.run (hc : c.Faithful) (moves : List (Move ι τ)) : (c.run moves).2.Faithful := by
  induction moves generalizing c with
  | nil => exact hc
  | cons m ms ih => exact ih (hc.effect (c.effect_step m))

/-- **What a fusion stores can be made again.**  Whatever studios, generators and moderators are at
work, and however their fusions overlap with each other and with records inserted by others: each
artifact that is returned stands in the history with a record that can be made again from its
blueprint, and every record there was inserted as it is or belongs to such an artifact. -/
theorem stored_fusions_reproducible (studios : ι → Studio) (moves : List (Move ι τ)) :
    let trace := ((fresh studios).run moves).1
    let after := ((fresh studios).run moves).2
    (∀ a, .returned (.ok a) ∈ trace →
      ∃ r, after.history.get? a.id = some r ∧ r.artifact = a ∧ r.Reproducible) ∧
    ∀ id r, after.history.get? id = some r → .insert id r ∈ moves ∨
      r.artifact.id = id ∧ .returned (.ok r.artifact) ∈ trace ∧ r.Reproducible := by
  intro trace after
  have hfaithful : ∀ before, ((fresh studios).run before : _ × Threads ι τ).2.Faithful :=
    (faithful_fresh studios).run
  constructor
  · intro a ha
    obtain ⟨before, m, rest, -, t, d, hstage, hartifact, hget⟩ := returned_run _ ha
    refine ⟨_, hget, hartifact.symm, hfaithful before t d ?_ a.id⟩
    rw [hstage]
    rfl
  · intro id r hget
    rcases origin_of_get? _ hget with hempty | hinsert | ⟨before, m, rest, rfl, t, d, hstage, rfl, he⟩
    · cases hempty
    · exact Or.inl hinsert
    · have hdraft : (((fresh studios).run before).2.stage t).draft? = some d := by
        rw [hstage]
        rfl
      exact Or.inr ⟨rfl, (mem_run_iff _).2 ⟨before, m, rest, rfl, he ▸ List.mem_cons_self⟩,
        hfaithful before t d hdraft id⟩

end Threads

end EffectFusion
