import EffectFusion.Proofs.Drafts
import EffectFusion.Proofs.Ordering

/-!
# Levels nest

Two fusions of one source, at two levels of one configuration, are two runs of everything: each
selects and sorts modules, scores and sorts profiles, and moderates.  A profile depends on the
essence and on its own module, a moderator at hand changes each profile by itself, and both sorts
can change places with a filter.  So the profiles at the lower level are those at the higher one
of the modules that take part at the lower level, unchanged and in the same order.

* `Moderator.pointwise_of_supplied`  moderators that change each profile by itself;
* `filter_select_analyze`            the profiles of two levels before moderation;
* `Studio.modules_of_draft`          the profiles of a draft;
* `Studio.levels_nest`               the blueprints that are stored.
-/

namespace EffectFusion

/-! ### Moderators -/

namespace Moderator

/-- changes each profile by itself and leaves its id -/
structure Pointwise (m : Moderator Float) (f : Profile Float → Profile Float) : Prop where
  id : ∀ p, (f p).moduleId = p.moduleId
  modules : ∀ {b b'}, m b = .ok b' → b'.modules = b.modules.map f

theorem pointwise_passthrough : Pointwise passthrough (fun p => p) where
  id := fun _ => rfl
  modules := by
    intro b b' h
    cases h
    exact (List.map_id b.modules).symm

theorem pointwise_clampTo {max : Float} (h : Scalar.atMost 0.0 max = true) :
    Pointwise (clampTo max) clampProfile where
  id := fun _ => rfl
  modules := by
    intro b b' hb
    rw [clampTo_eq_ok h] at hb
    cases hb
    rfl

theorem pointwise_of_supplied {m : Moderator Float} (h : m.Supplied) : ∃ f, m.Pointwise f := by
  rcases h with rfl | ⟨max, hmax, rfl⟩
  · exact ⟨_, pointwise_passthrough⟩
  · exact ⟨_, pointwise_clampTo hmax⟩

end Moderator

/-! ### Profiles of two levels -/

section

variable {F : Type} [Scalar F]

/-- a profile of a module that takes part at a level -/
def takesPart (ms : List (Enhancement F)) (level : UInt8) (p : Profile F) : Bool :=
  ms.any (fun m => m.id = p.moduleId && (m.level ≤ level || m.universal))

/-- different ids tell from a profile which module it is of -/
theorem takesPart_profile {ms : List (Enhancement F)} (hids : (ms.map (·.id)).Nodup)
    (level : UInt8) (e : Essence F) {m : Enhancement F} (hm : m ∈ ms) :
    takesPart ms level (profile e m) = m.activeAt level := by
  rw [Bool.eq_iff_iff]
  constructor
  · intro h
    obtain ⟨m', hm', hboth⟩ := List.any_eq_true.1 h
    rw [Bool.and_eq_true, decide_eq_true_eq] at hboth
    have hsame : m' = m := List.inj_on_of_nodup_map hids hm' hm hboth.1
    rw [← hsame]
    exact hboth.2
  · intro h
    refine List.any_eq_true.2 ⟨m, hm, ?_⟩
    rw [Bool.and_eq_true, decide_eq_true_eq]
    exact ⟨rfl, h⟩

theorem filter_select_analyze {c : Catalog F} (hids : (c.modules.map (·.id)).Nodup)
    {low high : UInt8} (h : low ≤ high) (e : Essence F) :
    (analyze e (c.select high)).filter (takesPart c.modules low) = analyze e (c.select low) := by
  rw [filter_analyze e (q := fun m => m.activeAt low), c.filter_select h]
  intro m hm
  have hmem : m ∈ c.modules := List.mem_of_mem_filter ((c.select_perm high).mem_iff.1 hm)
  exact takesPart_profile hids low e hmem

end

/-! ### Drafts -/

namespace Studio

variable {s : Studio} {source : List Char} {level : UInt8} {options : Options Float}

/-- a known level and finite options have a draft with the profiles of the level, each of them as
the moderator changes it -/
theorem modules_of_draft (hs : s.Sound) {f : Profile Float → Profile Float}
    (hf : s.moderator.Pointwise f) (source : List Char)
    (hlevel : ∃ p ∈ s.policies.policies, p.level = level) (hoptions : options.Finite) :
    ∃ d, s.draft source level options = .ok d ∧ d.blueprint.modules =
      (analyze (Essence.extract source) (s.catalog.select level)).map f := by
  rcases s.policies.get_cases level with ⟨p, hp, -, hget⟩ | ⟨hnone, -⟩
  · rcases options.check_cases with ⟨-, hcheck⟩ | ⟨hnot, -⟩
    · obtain ⟨d, hd⟩ := draft_eq_ok hs source hp hget hcheck
      have hblueprint := (made_of_draft hd).1
      rw [draftBlueprint_eq hget hcheck] at hblueprint
      exact ⟨d, hd, hf.modules (moderated_eq_ok_iff.1 hblueprint).1⟩
    · exact absurd hoptions hnot
  · obtain ⟨p, hp, hlevel⟩ := hlevel
    exact absurd hlevel (hnone p hp)

theorem drafts_nest (hs : s.Sound) (hids : (s.catalog.modules.map (·.id)).Nodup)
    {f : Profile Float → Profile Float} (hf : s.moderator.Pointwise f) {low high : UInt8}
    (hlow : ∃ p ∈ s.policies.policies, p.level = low)
    (hhigh : ∃ p ∈ s.policies.policies, p.level = high) (hle : low ≤ high)
    {o o' : Options Float} (ho : o.Finite) (ho' : o'.Finite) (source : List Char) :
    ∃ d d', s.draft source low o = .ok d ∧ s.draft source high o' = .ok d' ∧
      d.blueprint.modules = d'.blueprint.modules.filter (takesPart s.catalog.modules low) := by
  obtain ⟨d, hd, hmodules⟩ := modules_of_draft hs hf source hlow ho
  obtain ⟨d', hd', hmodules'⟩ := modules_of_draft hs hf source hhigh ho'
  have hsame : takesPart s.catalog.modules low ∘ f = takesPart s.catalog.modules low := by
    funext p
    simp only [Function.comp_apply, takesPart, hf.id]
  refine ⟨d, d', hd, hd', ?_⟩
  rw [hmodules, hmodules', List.filter_map, hsame, filter_select_analyze hids hle]

/-! ### Stored blueprints -/

/-- what a fusion stores when it succeeds, whatever its history holds and whichever ids it draws,
is the blueprint; and with ids from a plain history it does succeed -/
def Stores (s : Studio) (source : List Char) (level : UInt8) (options : Options Float)
    (b : Blueprint Float) : Prop :=
  (∀ ids h a, ({ s with ids := ids }.fuse h source level options).1 = .ok a →
    ({ s with ids := ids }.fuse h source level options).2.2.get? a.id = some ⟨b, a⟩) ∧
  ∀ h : History, h.Plain → ∃ a, ({ s with ids := none }.fuse h source level options).1 = .ok a

theorem stores_of_draft {d : Draft} (hd : s.draft source level options = .ok d) :
    s.Stores source level options d.blueprint := by
  have hdraft : ∀ ids, { s with ids := ids }.draft source level options = .ok d := fun _ => hd
  constructor
  · intro ids h a ha
    rcases fuse_cases { s with ids := ids } h source level options with
      ⟨e, -, hf⟩ | ⟨e, -, -, hf⟩ | ⟨e, he, -, hf⟩
    · rw [hf] at ha
      cases ha
    · rw [hf] at ha
      cases ha
    · rw [hdraft] at he
      cases he
      rw [hf] at ha ⊢
      cases ha
      exact Keyed.get?_insert_self h.records _ _
  · intro h hh
    rw [fuse_of_plain rfl hh, hdraft]
    exact ⟨_, rfl⟩

/-- **Levels nest.**  At two levels of an accepted configuration the same source is fused, with
any finite options.  What is stored at the lower level has exactly the profiles, with all their
numbers and in the same order, that what is stored at the higher level has of the modules that are
universal or not above the lower level. -/
theorem levels_nest {c : Config Float} {m : Moderator Float} (hc : ofConfig c = .ok s)
    (hm : m.Supplied) {low high : UInt8} (hlow : ∃ p ∈ c.levels, p.level = low)
    (hhigh : ∃ p ∈ c.levels, p.level = high) (hle : low ≤ high) {o o' : Options Float}
    (ho : o.Finite) (ho' : o'.Finite) (source : List Char) :
    ∃ b b', { s with moderator := m }.Stores source low o b ∧
      { s with moderator := m }.Stores source high o' b' ∧
      b.modules = b'.modules.filter (takesPart c.modules low) := by
  obtain ⟨hsound, -, hperm⟩ := sound_of_ofConfig hc (Moderator.harmless_of_supplied hm)
  obtain ⟨-, -, hcatalog⟩ := Config.parts_eq_ok_iff.1 (parts_of_ofConfig hc).1
  obtain ⟨-, hids, hmodules⟩ := Catalog.ofList_eq_ok_iff.1 hcatalog
  rw [← hmodules] at hids ⊢
  obtain ⟨f, hf⟩ := Moderator.pointwise_of_supplied hm
  simp only [← hperm.mem_iff] at hlow hhigh
  obtain ⟨d, d', hd, hd', hnest⟩ := drafts_nest hsound hids hf hlow hhigh hle ho ho' source
  exact ⟨d.blueprint, d'.blueprint, stores_of_draft hd, stores_of_draft hd', hnest⟩

theorem levels_nest_pair :
    ∃ s, ofConfig Config.pair = .ok s ∧ Moderator.Supplied .standard ∧
      (Options.zero : Options Float).Finite ∧
      ∃ b b', { s with moderator := .standard }.Stores "spawn()".toList 1 .zero b ∧
        { s with moderator := .standard }.Stores "spawn()".toList 2 .zero b' ∧
        b.modules = b'.modules.filter (takesPart Config.pair.modules 1) := by
  obtain ⟨catalog, table, hparts⟩ := Config.parts_of_valid Config.valid_pair
  have hconfig : ofConfig Config.pair = .ok (ofParts catalog table) := by
    unfold ofConfig
    rw [hparts]
    rfl
  have hmoderator : Moderator.Supplied .standard := Or.inr ⟨100.0, by decide +kernel, rfl⟩
  exact ⟨_, hconfig, hmoderator, Options.finite_zero, levels_nest hconfig hmoderator (by decide)
    (by decide) (by decide) Options.finite_zero Options.finite_zero _⟩

end Studio

end EffectFusion
