import EffectFusion.Proofs.Drafts
import EffectFusion.Proofs.Threads

/-!
# Overlapping fusions with ids from the history

When no studio has a generator and nothing is stored but fusions, the ids in use are those of the
sequence.  Each was drawn once; a stored record has one of them, and so has a thread between its
draw and its store, where the id is still free and no other thread has it.  `Apart` says this of
the threads at one moment and every move keeps it, whichever thread moves.

The sequence has no last number here: it is that of a counter of 64 bits for as long as fewer than
`2^64` ids are drawn.

* `Apart.effect`, `Apart.run`    what moves keep;
* `Apart.duplicateId_iff`        which calls come back because an id is taken;
* `interleaved_fusions_apart`    no fusion finds its id taken, and no record is lost.
-/

namespace EffectFusion

/-- stores nothing past the fusions and brings in no studio from outside `S` -/
def Move.Plain {ι τ : Type} (S : Set Studio) : Move ι τ → Prop
  | .insert _ _ => False
  | .bind _ studio => studio ∈ S
  | _ => True

namespace Threads

variable {ι τ : Type} [DecidableEq ι] [DecidableEq τ] {S : Set Studio}

/-- an idle thread is asked for a fusion, and the moderator of the studio that is asked refuses the
blueprint it is given -/
def Declined (c : Threads ι τ) (m : Move ι τ) (e : FusionError) : Prop :=
  ∃ t i source level options b, m = .start t i source level options ∧ c.stage t = .idle ∧
    proposal (c.studios i).catalog (c.studios i).policies source level options = .ok b ∧
    (c.studios i).moderator b = .error e

/-- the ids `issued` so far are the first numbers, and whoever has one has it alone -/
structure Apart (S : Set Studio) (issued : List String) (c : Threads ι τ) : Prop where
  studios : ∀ i, c.studios i ∈ S
  issued_eq : issued = (List.range' 1 c.history.drawn).map numberedId
  stored : ∀ id, c.history.records.contains id = true → id ∈ issued
  held : ∀ t id, (c.stage t).held? = some id → id ∈ issued
  free : ∀ t id, (c.stage t).held? = some id → c.history.records.contains id = false
  alone : ∀ t u id, (c.stage t).held? = some id → (c.stage u).held? = some id → t = u

omit [DecidableEq ι] [DecidableEq τ] in
theorem apart_fresh {studios : ι → Studio} (h : ∀ i, studios i ∈ S) :
    Apart S [] (fresh studios : Threads ι τ) where
  studios := h
  issued_eq := rfl
  stored id hc := by cases hc
  held t id hheld := by cases hheld
  free t id hheld := by cases hheld
  alone t u id hheld := by cases hheld

namespace Apart

variable {c c' : Threads ι τ} {m : Move ι τ} {es : List Event} {issued : List String}

omit [DecidableEq ι] [DecidableEq τ] in
theorem next_not_issued (hc : Apart S issued c) : numberedId (c.history.drawn + 1) ∉ issued := by
  intro hmem
  rw [hc.issued_eq] at hmem
  obtain ⟨n, hn, heq⟩ := List.mem_map.1 hmem
  have hle := (List.mem_range'_1.1 hn).2
  have hnumber := numberedId_injective heq
  omega

omit [DecidableEq ι] [DecidableEq τ] in
/-- one more id is drawn and nobody has it yet -/
theorem drawn (hc : Apart S issued c) :
    Apart S (issued ++ [numberedId (c.history.drawn + 1)])
      { c with history := c.history.nextId.2 } where
  studios := hc.studios
  issued_eq := by
    show _ = (List.range' 1 (c.history.drawn + 1)).map numberedId
    rw [List.range'_1_concat, List.map_append, ← hc.issued_eq, Nat.add_comm]
    rfl
  stored id h := List.mem_append_left _ (hc.stored id h)
  held t id h := List.mem_append_left _ (hc.held t id h)
  free := hc.free
  alone := hc.alone

omit [DecidableEq ι] in
/-- a thread takes another stage, with an id that nobody else has or with none -/
theorem staged (hc : Apart S issued c) (t : τ) (g : Stage ι)
    (hg : ∀ id, g.held? = some id → id ∈ issued ∧ c.history.records.contains id = false ∧
      ∀ u, u ≠ t → (c.stage u).held? ≠ some id) : Apart S issued (c.setStage t g) where
  studios := hc.studios
  issued_eq := hc.issued_eq
  stored := hc.stored
  held u id h := by
    rw [stage_setStage] at h
    split at h
    · exact (hg id h).1
    · exact hc.held u id h
  free u id h := by
    rw [stage_setStage] at h
    split at h
    · exact (hg id h).2.1
    · exact hc.free u id h
  alone u v id hu hv := by
    rw [stage_setStage] at hu hv
    split at hu <;> split at hv
    · rename_i hut hvt
      rw [hut, hvt]
    · rename_i hvt
      exact absurd hv ((hg id hu).2.2 v hvt)
    · rename_i hut _
      exact absurd hu ((hg id hv).2.2 u hut)
    · exact hc.alone u v id hu hv

omit [DecidableEq ι] [DecidableEq τ] in
/-- a record is stored under an id that was drawn and that nobody holds -/
theorem recorded (hc : Apart S issued c) {id : String} (hid : id ∈ issued)
    (hnone : ∀ t, (c.stage t).held? ≠ some id) (record : Record) :
    Apart S issued (c.store id record) where
  studios := hc.studios
  issued_eq := hc.issued_eq
  stored id' h := by
    rcases (Keyed.contains_insert _ _ _ _).1 h with rfl | h
    · exact hid
    · exact hc.stored id' h
  held := hc.held
  free t id' h := by
    rw [← Bool.not_eq_true]
    intro hcontains
    rcases (Keyed.contains_insert _ _ _ _).1 hcontains with rfl | hbefore
    · exact hnone t h
    · rw [hc.free t id' h] at hbefore
      cases hbefore
  alone := hc.alone

theorem draw_eq (hc : Apart S issued c) (hS : ∀ s ∈ S, s.ids = none) (t : τ) (i : ι) (d : Draft) :
    c.draw t i d = { c with history := c.history.nextId.2 }.setStage t
      (.named (numberedId (c.history.drawn + 1)) d) := by
  have hids := hS _ (hc.studios i)
  unfold draw setStage
  rw [Studio.afterId_of_none hids, Studio.historyAfterId_of_none hids,
    Studio.nextId_of_none hids, Function.update_eq_self]

omit [DecidableEq ι] [DecidableEq τ] in
theorem of_silent (hes : draws es = []) (hc : Apart S issued c) :
    Apart S (issued ++ draws es) c := by
  rwa [hes, List.append_nil]

theorem effect (hc : Apart S issued c) (hS : ∀ s ∈ S, s.ids = none) (hm : m.Plain S)
    (h : Effect c m es c') : Apart S (issued ++ draws es) c' := by
  cases h with
  | busy | resting | refused => exact of_silent rfl hc
  | drafted => exact of_silent rfl (hc.staged _ _ (fun id h => by cases h))
  | @drew t i d ht =>
    rw [hc.draw_eq hS, Studio.nextId_of_none (hS _ (hc.studios i))]
    refine hc.drawn.staged t _ (fun id h => ?_)
    cases h
    have hnew := hc.next_not_issued
    refine ⟨List.mem_append_right _ List.mem_cons_self, ?_, fun u _ hu => hnew (hc.held u _ hu)⟩
    rw [← Bool.not_eq_true]
    exact fun hcontains => hnew (hc.stored _ hcontains)
  | @taken t id d ht htaken =>
    rw [hc.free t id (by rw [ht]; rfl)] at htaken
    cases htaken
  | @stored t id d ht =>
    have hheld : (c.stage t).held? = some id := by
      rw [ht]
      rfl
    have hidle := hc.staged t .idle (fun id h => by cases h)
    refine of_silent rfl (hidle.recorded (hc.held t id hheld) (fun u hu => ?_) _)
    rw [stage_setStage] at hu
    split at hu
    · cases hu
    · rename_i hne
      exact hne (hc.alone u t id hu hheld)
  | skipped => exact hc.drawn
  | rejected => exact hm.elim
  | inserted => exact hm.elim
  | bound i studio =>
    refine of_silent rfl { hc with studios := fun j => ?_ }
    show Function.update c.studios i studio j ∈ S
    rw [Function.update_apply]
    split
    · exact hm
    · exact hc.studios j

theorem run (hc : Apart S issued c) (hS : ∀ s ∈ S, s.ids = none) {moves : List (Move ι τ)}
    (hmoves : ∀ m ∈ moves, m.Plain S) :
    Apart S (issued ++ draws (c.run moves).1) (c.run moves).2 := by
  induction moves generalizing c issued with
  | nil =>
    show Apart S (issued ++ []) c
    rwa [List.append_nil]
  | cons m ms ih =>
    have hstep := hc.effect hS (hmoves m List.mem_cons_self) (c.effect_step m)
    have hrest := ih hstep (fun n hn => hmoves n (List.mem_cons_of_mem m hn))
    rw [List.append_assoc, ← draws_append] at hrest
    exact hrest

/-- no thread finds its id taken, so that answer is a moderator's -/
theorem declined (hc : Apart S issued c) (h : Effect c m es c') {id : String}
    (he : .returned (.error (.duplicateId id)) ∈ es) : c.Declined m (.duplicateId id) := by
  cases h with
  | @refused t i source level options e ht hd =>
    cases List.mem_singleton.1 he
    obtain ⟨b, hp, hm⟩ := Studio.draft_duplicateId_iff.1 hd
    exact ⟨t, i, source, level, options, b, rfl, ht, hp, hm⟩
  | @taken t id' d ht htaken =>
    rw [hc.free t id' (by rw [ht]; rfl)] at htaken
    cases htaken
  | busy | drafted | resting | bound => cases he
  | drew | stored | skipped | rejected | inserted => cases List.mem_singleton.1 he

theorem duplicateId_iff (hc : Apart S issued c) (m : Move ι τ) {id : String} :
    .returned (.error (.duplicateId id)) ∈ (c.step m).1 ↔ c.Declined m (.duplicateId id) := by
  refine ⟨hc.declined (c.effect_step m), ?_⟩
  rintro ⟨t, i, source, level, options, b, rfl, ht, hp, hm⟩
  have hd := Studio.draft_duplicateId_iff.2 ⟨b, hp, hm⟩
  simp only [step, ht, hd]
  exact List.mem_cons_self

end Apart

/-- **Fusions that overlap do not collide.**  `S` holds the studios in use, none with a generator,
and nothing is stored but fusions; threads may draw ids and store records in any order.  A call
comes back because an id is taken only when the moderator of the studio that was asked gives that
answer by itself, for the blueprint made of this call, so with moderators that never do no call
does.  A fusion that has drawn its id is finished by its next move.  The ids drawn are those of the
sequence in order, all different; each stored record has one of them; and what a fusion gave back
is found under its id ever after. -/
theorem interleaved_fusions_apart (hS : ∀ s ∈ S, s.ids = none) {studios : ι → Studio}
    (hstudios : ∀ i, studios i ∈ S) {moves : List (Move ι τ)} (hmoves : ∀ m ∈ moves, m.Plain S) :
    let trace := ((fresh studios).run moves).1
    let after := ((fresh studios).run moves).2
    (∀ before m rest, moves = before ++ m :: rest → ∀ id,
      .returned (.error (.duplicateId id)) ∈ (((fresh studios).run before).2.step m).1 ↔
        ((fresh studios).run before).2.Declined m (.duplicateId id)) ∧
    ((∀ s ∈ S, ∀ b id, s.moderator b ≠ .error (.duplicateId id)) →
      ∀ id, .returned (.error (.duplicateId id)) ∉ trace) ∧
    (∀ t id d, after.stage t = .named id d →
      (after.step (.proceed t)).1 = [.returned (.ok (d.record id).artifact)]) ∧
    draws trace = (List.range' 1 after.history.drawn).map (fun n => "fusion-" ++ toString n) ∧
    (draws trace).Nodup ∧
    (∀ id ∈ after.history.ids, id ∈ draws trace) ∧
    ∀ a, .returned (.ok a) ∈ trace → (after.history.get? a.id).map (·.artifact) = some a := by
  intro trace after
  have hbefore : ∀ {before m rest}, moves = before ++ m :: rest →
      Apart S (draws ((fresh studios).run before).1) ((fresh studios).run before).2 := by
    rintro before m rest rfl
    exact (apart_fresh hstudios).run hS (fun n hn => hmoves n (List.mem_append_left _ hn))
  have hafter : Apart S (draws trace) after := (apart_fresh hstudios).run hS hmoves
  refine ⟨fun before m rest hcut id => (hbefore hcut).duplicateId_iff m, fun hhonest id hid => ?_,
    fun t id d ht => ?_, hafter.issued_eq, ?_, fun id hid => ?_, fun a ha => ?_⟩
  · obtain ⟨before, m, rest, hcut, he⟩ := (mem_run_iff _).1 hid
    obtain ⟨-, i, -, -, -, b, -, -, -, hm⟩ := ((hbefore hcut).duplicateId_iff m).1 he
    exact hhonest _ ((hbefore hcut).studios i) b id hm
  · rw [step_stored ht (hafter.free t id (by rw [ht]; rfl))]
  · rw [hafter.issued_eq]
    exact List.Nodup.map (fun _ _ => numberedId_injective) List.nodup_range'
  · exact hafter.stored id (Keyed.mem_keys.1 hid)
  · obtain ⟨-, -, -, -, t, d, -, hartifact, hget⟩ := returned_run _ ha
    rw [hget, Option.map_some, ← hartifact]

/-! ### A run in which ids overtake each other -/

def loneStudio : Studio := .ofParts ⟨Studio.loneConfig.modules⟩ ⟨Studio.loneConfig.levels⟩

theorem harmless_loneStudio : loneStudio.moderator.Harmless :=
  Moderator.harmless_clampTo (by decide +kernel)

theorem draft_loneStudio (source : List Char) :
    ∃ d, loneStudio.draft source 1 .zero = .ok d := by
  have hsound : loneStudio.Sound := {
    modules := by decide +kernel
    policies := by decide +kernel
    moderator := harmless_loneStudio }
  exact Studio.draft_eq_ok hsound source List.mem_cons_self rfl rfl

/-- thread `true` is asked first and draws last, and an id is drawn between them that no fusion
gets -/
def overtaking : List (Move Unit Bool) := [
  .start true () "spawn()".toList 1 .zero, .start false () "drift()".toList 1 .zero,
  .proceed false, .nextId, .proceed true]

theorem run_overtaking {d e : Draft} (hd : loneStudio.draft "spawn()".toList 1 .zero = .ok d)
    (he : loneStudio.draft "drift()".toList 1 .zero = .ok e) :
    ((fresh fun _ => loneStudio).run overtaking).2 =
      (((((fresh fun _ => loneStudio).setStage true (.drafted () d)).setStage false
        (.drafted () e)).draw false () e).step .nextId).2.draw true () d := by
  rw [overtaking, run, step_drafted rfl hd, run, step_drafted rfl he, run, step_drew rfl, run,
    run, step_drew rfl]
  rfl

/-- the same studio with a moderator that calls every id taken -/
def forger : Studio := { loneStudio with moderator := fun _ => .error (.duplicateId "fusion-1") }

theorem proposal_forger (source : List Char) :
    ∃ b, proposal forger.catalog forger.policies source 1 .zero = .ok b := by
  obtain ⟨d, hd⟩ := draft_loneStudio source
  have hblueprint := (Studio.made_of_draft hd).1
  rw [draftBlueprint_eq_bind] at hblueprint
  obtain ⟨b, hb, -⟩ := bind_eq_ok_iff.1 hblueprint
  exact ⟨b, hb⟩

def forged : List (Move Unit Bool) := [.start true () "spawn()".toList 1 .zero]

/-- ids overtake each other and no call finds its id taken; a moderator that answers so is heard -/
theorem interleaved_fusions_apart_overtaking :
    ((∀ s ∈ ({loneStudio} : Set Studio), s.ids = none) ∧
      (∀ m ∈ overtaking, m.Plain {loneStudio}) ∧
      let trace := ((fresh fun _ => loneStudio).run overtaking).1
      let after := ((fresh fun _ => loneStudio).run overtaking).2
      draws trace = ["fusion-1", "fusion-2", "fusion-3"] ∧
      (∀ id, .returned (.error (.duplicateId id)) ∉ trace) ∧
      ∃ d e : Draft,
        (after.step (.proceed true)).1 = [.returned (.ok (d.record "fusion-3").artifact)] ∧
        (after.step (.proceed false)).1 = [.returned (.ok (e.record "fusion-1").artifact)]) ∧
    (∀ m ∈ forged, m.Plain {forger}) ∧
      .returned (.error (.duplicateId "fusion-1")) ∈ ((fresh fun _ => forger).run forged).1 := by
  obtain ⟨d, hd⟩ := draft_loneStudio "spawn()".toList
  obtain ⟨e, he⟩ := draft_loneStudio "drift()".toList
  have hids : ∀ s ∈ ({loneStudio} : Set Studio), s.ids = none := by
    rintro s rfl
    rfl
  have hmoves : ∀ m ∈ overtaking, m.Plain {loneStudio} := by
    intro m hm
    simp only [overtaking, List.mem_cons, List.not_mem_nil, or_false] at hm
    rcases hm with rfl | rfl | rfl | rfl | rfl <;> trivial
  have hhonest : ∀ s ∈ ({loneStudio} : Set Studio), ∀ b id,
      s.moderator b ≠ .error (.duplicateId id) := by
    rintro s rfl b id hb
    obtain ⟨b', hb', -⟩ := harmless_loneStudio b
    rw [hb'] at hb
    cases hb
  have hskip : ∀ c : Threads Unit Bool, (c.step .nextId).2.stage = c.stage := fun _ => rfl
  have hfirst : numberedId 1 = "fusion-1" := by decide
  have hthird : numberedId 3 = "fusion-3" := by decide
  obtain ⟨-, hnone, hfinish, hdraws, -⟩ := interleaved_fusions_apart hids (fun _ => rfl) hmoves
  rw [run_overtaking hd he] at hfinish hdraws
  refine ⟨⟨hids, hmoves, hdraws, hnone hhonest, d, e, ?_, ?_⟩, ?_⟩
  · rw [run_overtaking hd he]
    refine hfinish true "fusion-3" d ?_
    rw [stage_draw, if_pos rfl, Studio.nextId_of_none rfl]
    exact congrArg (Stage.named · d) hthird
  · rw [run_overtaking hd he]
    refine hfinish false "fusion-1" e ?_
    rw [stage_draw, if_neg (by decide), hskip, stage_draw, if_pos rfl, Studio.nextId_of_none rfl]
    exact congrArg (Stage.named · e) hfirst
  · obtain ⟨b, hb⟩ := proposal_forger "spawn()".toList
    have hforger : ∀ s ∈ ({forger} : Set Studio), s.ids = none := by
      rintro s rfl
      rfl
    have hplain : ∀ m ∈ forged, m.Plain {forger} := by simp [forged, Move.Plain]
    have hcalls := (interleaved_fusions_apart hforger (fun _ => rfl) hplain).1
    refine ⟨hplain, List.mem_append_left _ ((hcalls [] _ [] rfl "fusion-1").2 ?_)⟩
    exact ⟨true, (), _, 1, .zero, b, rfl, rfl, hb, rfl⟩

end Threads

end EffectFusion
