import EffectFusion.Moderation
import Mathlib

/-!
# What a moderator can change

`Blueprint.tags` is a blueprint without its numbers: every number is replaced by the same value, so
two blueprints have the same tags when they differ in numbers only, names in maps included.  The
shape of a blueprint sees all of its tags but those names.  So `Shape.verify` tells apart what
`(b.withoutAmounts).tags` tells apart, no more and no less.

* `breach?_eq_none_iff`        two shapes without a breach are the same;
* `verify_decides_tags`        what passes and what is refused;
* `verify_misses_influences`   a moderator may add an influence to a module;
* `bind_eq_ok_iff`             two steps that may fail, one after the other;
* `moderated_tags`             what moderation leaves of the tags;
* `moderated_of_tags`          moderators that keep all tags are accepted.
-/

namespace EffectFusion

section Tags

variable {F G : Type}

/-! ### Blueprints without their numbers -/

/-- every number replaced -/
def Essence.map (f : F → G) (e : Essence F) : Essence G where
  core := e.core
  dna := ⟨f e.dna.energy, f e.dna.complexity, f e.dna.innovation, e.dna.aesthetic, e.dna.emotion⟩
  technical := ⟨⟨f e.technical.performance.fps, e.technical.performance.memory,
    e.technical.performance.cpu⟩, e.technical.platforms, f e.technical.optimization⟩
  fusion := ⟨f e.fusion.flexibility, f e.fusion.receptivity⟩

def Profile.map (f : F → G) (p : Profile F) : Profile G where
  moduleId := p.moduleId
  specialization := p.specialization
  compatibility := f p.compatibility
  weight := f p.weight
  creative := p.creative.map f
  behavioral := p.behavioral.map f
  technical := p.technical.map f
  algorithm := p.algorithm

def Blueprint.map (f : F → G) (b : Blueprint F) : Blueprint G where
  essence := b.essence.map f
  modules := b.modules.map (Profile.map f)
  strategy := b.strategy
  level := b.level
  intensity := f b.intensity
  expected := ⟨f b.expected.visual, f b.expected.performance, f b.expected.creative,
    f b.expected.behavioral⟩

/-- a blueprint without its numbers -/
def Blueprint.tags (b : Blueprint F) : Blueprint Unit := b.map (fun _ => ())

/-- without what the module adds to an effect -/
def Profile.withoutAmounts (p : Profile F) : Profile F :=
  { p with creative := .empty, behavioral := .empty, technical := .empty }

/-- without what the modules add to the effect -/
def Blueprint.withoutAmounts (b : Blueprint F) : Blueprint F :=
  { b with modules := b.modules.map Profile.withoutAmounts }

theorem tags_withoutAmounts_of_tags {b b' : Blueprint F} (h : b'.tags = b.tags) :
    b'.withoutAmounts.tags = b.withoutAmounts.tags := by
  have hsame : ∀ b : Blueprint F, b.withoutAmounts.tags = b.tags.withoutAmounts := by
    intro b
    simp [Blueprint.tags, Blueprint.withoutAmounts, Blueprint.map, Profile.map,
      Profile.withoutAmounts, Function.comp_def, Keyed.map, Keyed.empty]
  rw [hsame, hsame, h]

/-! ### Shapes and tags -/

theorem map_eq_map_of_iff {α β γ : Type} {f : α → β} {g : α → γ}
    (h : ∀ a a', f a = f a' ↔ g a = g a') (as as' : List α) :
    as.map f = as'.map f ↔ as.map g = as'.map g := by
  induction as generalizing as' with
  | nil => cases as' <;> simp
  | cons a as ih =>
    cases as' with
    | nil => simp
    | cons a' as' => simp [h a a', ih as']

namespace Shape

theorem ofEssence_eq_iff (e e' : Essence F) :
    ofEssence e = ofEssence e' ↔ e.map (fun _ => ()) = e'.map (fun _ => ()) := by
  simp only [ofEssence, Essence.map, EssenceTags.mk.injEq, Essence.mk.injEq, CreativeDna.mk.injEq,
    TechnicalAspects.mk.injEq, Performance.mk.injEq]
  tauto

theorem ofProfile_eq_iff (p p' : Profile F) :
    ofProfile p = ofProfile p' ↔
      p.withoutAmounts.map (fun _ => ()) = p'.withoutAmounts.map (fun _ => ()) := by
  simp [ofProfile, Profile.map, Profile.withoutAmounts]

/-- the shape sees every tag but the names of amounts -/
theorem of_eq_iff (b b' : Blueprint F) :
    Shape.of b = Shape.of b' ↔ b.withoutAmounts.tags = b'.withoutAmounts.tags := by
  have hmodules := map_eq_map_of_iff ofProfile_eq_iff b.modules b'.modules
  simp only [Shape.of, Shape.mk.injEq, Blueprint.tags, Blueprint.map, Blueprint.withoutAmounts,
    Blueprint.mk.injEq, List.map_map, Function.comp_def, ofEssence_eq_iff, hmodules]
  tauto

/-! ### Breaches -/

theorem moduleBreach?_eq_none_iff {before after : ModuleTags} (h : after.id = before.id) :
    moduleBreach? before after = none ↔ after = before := by
  obtain ⟨i, s, a⟩ := before
  obtain ⟨i', s', a'⟩ := after
  obtain rfl : i' = i := h
  unfold moduleBreach?
  split
  · rename_i hs
    simp [hs]
  · split
    · rename_i ha
      simp [ha]
    · simp_all

theorem modules_eq_iff (before after : List ModuleTags) :
    after = before ↔ after.map (·.id) = before.map (·.id) ∧
      (before.zip after).findSome? (fun p => moduleBreach? p.1 p.2) = none := by
  induction before generalizing after with
  | nil => cases after <;> simp
  | cons t ts ih =>
    cases after with
    | nil => simp
    | cons u us =>
      rw [List.map_cons, List.map_cons, List.cons.injEq, List.cons.injEq, ih us, List.zip_cons_cons,
        List.findSome?_cons]
      by_cases hid : u.id = t.id
      · have hbreach := moduleBreach?_eq_none_iff hid
        by_cases hut : u = t
        · rw [hbreach.2 hut]
          simp [hut]
        · obtain ⟨e, he⟩ := Option.ne_none_iff_exists'.1 (mt hbreach.1 hut)
          simp [hut, he]
      · have hut : u ≠ t := fun h => hid (congrArg ModuleTags.id h)
        simp [hid, hut]

theorem breach?_eq_none_iff (before after : Shape) :
    before.breach? after = none ↔ after = before := by
  have hmodules := modules_eq_iff before.modules after.modules
  have hsplit : after = before ↔ after.modules = before.modules ∧ after.strategy = before.strategy ∧
      after.level = before.level ∧ after.essence = before.essence := by
    cases before
    cases after
    simp
  rw [hsplit, hmodules]
  unfold breach? ids
  by_cases hids : after.modules.map (·.id) = before.modules.map (·.id)
  · rw [if_neg (not_not_intro hids)]
    cases hfound : (before.modules.zip after.modules).findSome? (fun p => moduleBreach? p.1 p.2) with
    | some e => simp
    | none =>
      by_cases hs : after.strategy = before.strategy
      · by_cases hl : after.level = before.level
        · by_cases ha : after.essence.core.animation = before.essence.core.animation
          · simp [hids, hs, hl, ha]
          · have he : after.essence ≠ before.essence := fun h => ha (by rw [h])
            simp [hids, hs, hl, ha, he]
        · simp [hs, hl]
      · simp [hs]
  · simp [hids]

theorem verify_eq_ok_iff (before : Shape) (b : Blueprint F) :
    before.verify b = .ok () ↔ Shape.of b = before := by
  rw [← breach?_eq_none_iff]
  unfold verify
  cases before.breach? (Shape.of b) <;> simp

/-- **What passes and what is refused.**  A blueprint passes when its tags but the names of amounts
are as before; all else is a breach. -/
theorem verify_decides_tags (b b' : Blueprint F) :
    b'.withoutAmounts.tags = b.withoutAmounts.tags ∧ (Shape.of b).verify b' = .ok () ∨
      b'.withoutAmounts.tags ≠ b.withoutAmounts.tags ∧
        ∃ e, (Shape.of b).verify b' = .error (.moderation e) := by
  rw [ne_eq, ← of_eq_iff, ← verify_eq_ok_iff]
  unfold verify
  cases (Shape.of b).breach? (Shape.of b') with
  | none => exact Or.inl ⟨rfl, rfl⟩
  | some e => exact Or.inr ⟨by simp, e, rfl⟩

end Shape

end Tags

/-! ### A name that nobody misses -/

/-- one more influence for every module -/
def Moderator.addInfluence {F : Type} (name : String) (v : F) : Moderator F := fun b =>
  .ok { b with modules := b.modules.map (fun p => { p with behavioral := p.behavioral.insert name v }) }

def loneBlueprint : Blueprint Float where
  essence :=
    { core := ⟨.particleSystem, .ofList [], .empty, .empty⟩
      dna := ⟨0.7, 0.5, 0.4, .organic, .engaging⟩
      technical := ⟨⟨60.0, .low, .low⟩, .ofList [.canvas2d], 0.3⟩
      fusion := ⟨0.7, 0.7⟩ }
  modules := [
    { moduleId := "shader_library"
      specialization := .visual
      compatibility := 0.7
      weight := 0.5
      creative := .ofList [("energy", 0.49)]
      behavioral := .ofList [("movement", 0.35), ("rhythm", 0.35)]
      technical := .ofList [("performance", 0.25)]
      algorithm := .technical }]
  strategy := .balanced
  level := 2
  intensity := 0.6
  expected := ⟨60.0, 50.0, 60.0, 60.0⟩

theorem verify_misses_influences :
    ∃ b, Moderator.addInfluence "sway" 0.5 loneBlueprint = .ok b ∧ b.tags ≠ loneBlueprint.tags ∧
      (Shape.of loneBlueprint).verify b = .ok () := by
  refine ⟨_, rfl, ?_, ?_⟩
  · decide
  · exact (Shape.verify_eq_ok_iff _ _).2 rfl

/-! ### Steps that may fail -/

section Steps

variable {ε α β : Type} {x : Except ε α} {f : α → Except ε β}

theorem bind_eq_ok_iff {b : β} : (x >>= f) = .ok b ↔ ∃ a, x = .ok a ∧ f a = .ok b := by
  cases x with
  | error e =>
    constructor
    · intro h
      cases h
    · rintro ⟨a, h, -⟩
      cases h
  | ok a =>
    constructor
    · exact fun h => ⟨a, rfl, h⟩
    · rintro ⟨a', ha, h⟩
      rwa [← Except.ok.inj ha] at h

theorem bind_eq_error_iff {e : ε} :
    (x >>= f) = .error e ↔ x = .error e ∨ ∃ a, x = .ok a ∧ f a = .error e := by
  cases x with
  | error d =>
    constructor
    · exact fun h => Or.inl (congrArg Except.error (Except.error.inj h))
    · rintro (h | ⟨a, h, -⟩)
      · exact congrArg Except.error (Except.error.inj h)
      · cases h
  | ok a =>
    constructor
    · exact fun h => Or.inr ⟨a, rfl, h⟩
    · rintro (h | ⟨a', ha, h⟩)
      · cases h
      · rwa [← Except.ok.inj ha] at h

end Steps

/-! ### Moderated blueprints -/

section Moderated

variable {F : Type} {m : Moderator F} {b b' : Blueprint F}

theorem moderated_eq_ok_iff :
    moderated m b = .ok b' ↔ m b = .ok b' ∧ (Shape.of b).verify b' = .ok () := by
  constructor
  · intro h
    obtain ⟨c, hm, h⟩ := bind_eq_ok_iff.1 h
    obtain ⟨⟨⟩, hv, h⟩ := bind_eq_ok_iff.1 h
    obtain rfl := Except.ok.inj h
    exact ⟨hm, hv⟩
  · rintro ⟨hm, hv⟩
    exact bind_eq_ok_iff.2 ⟨b', hm, bind_eq_ok_iff.2 ⟨(), hv, rfl⟩⟩

/-- what moderation leaves of the tags -/
theorem moderated_tags (h : moderated m b = .ok b') :
    b'.withoutAmounts.tags = b.withoutAmounts.tags :=
  (Shape.of_eq_iff b' b).1 ((Shape.verify_eq_ok_iff (Shape.of b) b').1 (moderated_eq_ok_iff.1 h).2)

theorem moderated_of_tags (hm : m b = .ok b') (h : b'.tags = b.tags) : moderated m b = .ok b' := by
  refine moderated_eq_ok_iff.2 ⟨hm, (Shape.verify_eq_ok_iff (Shape.of b) b').2 ?_⟩
  exact (Shape.of_eq_iff b' b).2 (tags_withoutAmounts_of_tags h)

end Moderated

end EffectFusion
