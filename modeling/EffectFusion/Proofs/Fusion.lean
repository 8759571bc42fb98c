import EffectFusion.Proofs.Config
import EffectFusion.Proofs.Moderation
import EffectFusion.Proofs.Script.Lengths
import EffectFusion.Proofs.Sequence
import EffectFusion.Proofs.Synthesis
import EffectFusion.Proofs.Template.Compression

/-!
# When a fusion fails

A studio of a sound configuration whose moderator is harmless fails for what it is asked for and
for nothing else: its blueprint is writable, so the script can be generated; every script can be
compressed; and the id is free.

* `clampTo_eq_ok`       clamping to an interval that is not empty;
* `draft_cases`         what becomes of a draft;
* `sound_of_ofConfig`   the studio of an accepted configuration;
* `fuse_outcome`        what a fusion gives back for every source, level and options.
-/

namespace EffectFusion

open Number Scalar

/-! ### Harmless moderators -/

namespace Moderator

/-- accepts every blueprint, keeps its tags and leaves it writable -/
def Harmless (m : Moderator Float) : Prop :=
  ∀ b, ∃ b', m b = .ok b' ∧ b'.tags = b.tags ∧ (b.Writable → b'.Writable)

theorem harmless_passthrough : Harmless passthrough := fun b => ⟨b, rfl, rfl, id⟩

section

variable {F : Type} [Scalar F]

theorem clampExpectation_eq_ok {max : F} (h : atMost 0.0 max = true) (v : F) :
    clampExpectation max v = .ok (clamp 0.0 max v) := by
  simp [clampExpectation, clampChecked?, h]

/-- a blueprint with its numbers brought into their intervals -/
def clamped (max : F) (b : Blueprint F) : Blueprint F :=
  { b with
    intensity := clampUnit b.intensity
    modules := b.modules.map clampProfile
    expected := ⟨clamp 0.0 max b.expected.visual, clamp 0.0 max b.expected.performance,
      clamp 0.0 max b.expected.creative, clamp 0.0 max b.expected.behavioral⟩ }

theorem clampTo_eq_ok {max : F} (h : atMost 0.0 max = true) (b : Blueprint F) :
    clampTo max b = .ok (clamped max b) := by
  simp only [clampTo, clampProjection, clampExpectation_eq_ok h]
  rfl

theorem tags_clampProfile (p : Profile F) :
    (clampProfile p).map (fun _ => ()) = p.map (fun _ => ()) := by
  simp [Profile.map, clampProfile, clampMap, Keyed.map, Function.comp_def]

theorem tags_clamped (max : F) (b : Blueprint F) : (clamped max b).tags = b.tags := by
  simp only [clamped, Blueprint.tags, Blueprint.map, List.map_map, Function.comp_def,
    tags_clampProfile]

end

theorem isFinite_clampUnit (v : Float) : Scalar.isFinite (clampUnit v) = true :=
  isFinite_of_below (below_clampUnit v)

theorem isFinite_clampMap (m : Keyed Float) :
    ∀ e ∈ (clampMap m).entries, Scalar.isFinite e.2 = true := by
  intro e he
  obtain ⟨f, -, rfl⟩ := List.mem_map.1 he
  exact isFinite_clampUnit f.2

theorem writable_clampProfile (p : Profile Float) : (clampProfile p).Writable :=
  ⟨isFinite_clampUnit p.weight, isFinite_clampMap p.creative, isFinite_clampMap p.behavioral,
    isFinite_clampMap p.technical⟩

theorem harmless_clampTo {max : Float} (h : atMost 0.0 max = true) : Harmless (clampTo max) := by
  intro b
  refine ⟨_, clampTo_eq_ok h b, tags_clamped max b, fun hb => ?_⟩
  refine ⟨hb.essence, fun p hp => ?_, isFinite_clampUnit b.intensity⟩
  obtain ⟨q, -, rfl⟩ := List.mem_map.1 hp
  exact writable_clampProfile q

/-- the moderators at hand; the bound of the one that clamps is a number and not below zero -/
def Supplied (m : Moderator Float) : Prop :=
  m = passthrough ∨ ∃ max, atMost 0.0 max = true ∧ m = clampTo max

theorem harmless_of_supplied {m : Moderator Float} (h : m.Supplied) : m.Harmless := by
  rcases h with rfl | ⟨max, hmax, rfl⟩
  · exact harmless_passthrough
  · exact harmless_clampTo hmax

end Moderator

/-! ### Drafts -/

namespace Options

variable {F : Type} [Scalar F] (o : Options F)

structure Finite : Prop where
  creativityBoost : Scalar.isFinite o.creativityBoost = true
  performancePriority : Scalar.isFinite o.performancePriority = true
  innovationLevel : Scalar.isFinite o.innovationLevel = true

/-- the list that is checked has every adjustment in it -/
theorem finite_iff_checked : o.Finite ↔ ∀ n ∈ o.named, Scalar.isFinite n.2 = true := by
  simp only [named, List.forall_mem_cons, List.not_mem_nil, false_implies, implies_true, and_true]
  constructor
  · exact fun h => ⟨h.creativityBoost, h.performancePriority, h.innovationLevel⟩
  · rintro ⟨h1, h2, h3⟩
    exact ⟨h1, h2, h3⟩

theorem finite_zero : (zero : Options Float).Finite :=
  ⟨by decide +kernel, by decide +kernel, by decide +kernel⟩

theorem check_cases :
    (o.Finite ∧ o.check = .ok ()) ∨
      (¬ o.Finite ∧ ∃ n ∈ o.named, Scalar.isFinite n.2 = false ∧
        o.check = .error (.validation (.optionNotFinite n.1 (Scalar.text n.2)))) := by
  rw [finite_iff_checked]
  unfold check defect?
  cases hfind : o.named.find? (fun n => !Scalar.isFinite n.2) with
  | some n =>
    have hmem := List.mem_of_find?_eq_some hfind
    have hn : Scalar.isFinite n.2 = false := by simpa using List.find?_some hfind
    exact Or.inr ⟨fun hall => Bool.eq_false_iff.1 hn (hall n hmem), n, hmem, hn, rfl⟩
  | none => exact Or.inl ⟨by simpa using hfind, rfl⟩

end Options

/-- compressing never fails, so a script is reconstructed when it can be generated -/
theorem reconstruct_eq (f : FusedEssence Float) :
    reconstruct f = (generate f).map fun s =>
      ⟨s, Script.throughAll Script.passes s, Script.notes Script.passes s⟩ := by
  unfold reconstruct
  cases generate f with
  | error e => rfl
  | ok s =>
    show (Script.compress s >>= _) = _
    rw [Script.compress_eq_ok]
    rfl

theorem reconstruct_of_writable {b : Blueprint Float} (h : b.Writable) :
    ∃ r, reconstruct (synthesize b) = .ok r := by
  rw [reconstruct_eq, Template.generate_eq_ok (isFinite_numbers h)]
  exact ⟨_, rfl⟩

namespace Studio

/-- a studio that only fails for what it is asked for -/
structure Sound (s : Studio) : Prop where
  modules : ∀ m ∈ s.catalog.modules, m.defect? = none
  policies : ∀ p ∈ s.policies.policies, p.defect? = none
  moderator : s.moderator.Harmless

variable {s : Studio}

theorem select_sound (hs : s.Sound) (level : UInt8) :
    ∀ m ∈ s.catalog.select level, m.defect? = none := by
  intro m hm
  have hm := (s.catalog.select_perm level).mem_iff.1 hm
  exact hs.modules m (List.mem_of_mem_filter hm)

theorem draft_eq_ok (hs : s.Sound) {level : UInt8} {p : LevelPolicy Float}
    {options : Options Float} (source : List Char) (hp : p ∈ s.policies.policies)
    (hlevel : s.policies.get level = .ok p) (hoptions : options.check = .ok ()) :
    ∃ d, s.draft source level options = .ok d := by
  have hbuild := writable_build (select_sound hs level) (hs.policies p hp) source options
  obtain ⟨b, hb, htags, hwritable⟩ := hs.moderator (Blueprint.build (Essence.extract source)
    (analyze (Essence.extract source) (s.catalog.select level)) p options)
  obtain ⟨r, hr⟩ := reconstruct_of_writable (hwritable hbuild)
  have hblueprint : draftBlueprint s.catalog s.policies s.moderator source level options = .ok b :=
    bind_eq_ok_iff.2 ⟨p, hlevel, bind_eq_ok_iff.2 ⟨(), hoptions, moderated_of_tags hb htags⟩⟩
  exact ⟨_, bind_eq_ok_iff.2 ⟨b, hblueprint, bind_eq_ok_iff.2 ⟨r, hr, rfl⟩⟩⟩

/-- what becomes of a draft: the level is asked for before the options, and after them nothing
can fail -/
theorem draft_cases (hs : s.Sound) (source : List Char) (level : UInt8) (options : Options Float) :
    ((∀ p ∈ s.policies.policies, p.level ≠ level) ∧
      s.draft source level options = .error (.unknownLevel level s.policies.levels)) ∨
    ((∃ p ∈ s.policies.policies, p.level = level) ∧ ¬ options.Finite ∧ ∃ n ∈ options.named,
      Scalar.isFinite n.2 = false ∧ s.draft source level options =
        .error (.validation (.optionNotFinite n.1 (Scalar.text n.2)))) ∨
    ((∃ p ∈ s.policies.policies, p.level = level) ∧ options.Finite ∧
      ∃ d, s.draft source level options = .ok d) := by
  have hfails : ∀ e, draftBlueprint s.catalog s.policies s.moderator source level options = .error e →
      s.draft source level options = .error e :=
    fun e he => bind_eq_error_iff.2 (Or.inl he)
  rcases s.policies.get_cases level with ⟨p, hp, hlevel, hget⟩ | ⟨hnone, hget⟩
  · rcases options.check_cases with ⟨hfinite, hcheck⟩ | ⟨hinfinite, n, hn, hnot, hcheck⟩
    · exact Or.inr (Or.inr ⟨⟨p, hp, hlevel⟩, hfinite, draft_eq_ok hs source hp hget hcheck⟩)
    · refine Or.inr (Or.inl ⟨⟨p, hp, hlevel⟩, hinfinite, n, hn, hnot, hfails _ ?_⟩)
      exact bind_eq_error_iff.2 (Or.inr ⟨p, hget, bind_eq_error_iff.2 (Or.inl hcheck)⟩)
  · exact Or.inl ⟨hnone, hfails _ (bind_eq_error_iff.2 (Or.inl hget))⟩

/-! ### Fusions -/

theorem parts_of_ofConfig {c : Config Float} (h : ofConfig c = .ok s) :
    c.parts = .ok (s.catalog, s.policies) ∧ s.ids = none := by
  obtain ⟨parts, hparts, h⟩ := bind_eq_ok_iff.1 h
  obtain rfl := Except.ok.inj h
  exact ⟨hparts, rfl⟩

/-- a configuration that was accepted makes a sound studio, with ids from the history -/
theorem sound_of_ofConfig {c : Config Float} (h : ofConfig c = .ok s) {m : Moderator Float}
    (hm : m.Harmless) :
    { s with moderator := m }.Sound ∧ s.ids = none ∧ s.policies.policies.Perm c.levels := by
  obtain ⟨hparts, hids⟩ := parts_of_ofConfig h
  obtain ⟨⟨hmodules, hsound⟩, hperm, hpolicies⟩ := Config.sound_of_parts hparts
  refine ⟨⟨?_, fun p hp => hpolicies p (hperm.mem_iff.1 hp), hm⟩, hids, hperm⟩
  show ∀ m ∈ s.catalog.modules, m.defect? = none
  rw [hmodules]
  exact hsound

/-- **When a fusion fails.**  With ids from a history that only such fusions write to, a studio of
an accepted configuration refuses levels without a policy, then options that are not finite, and
finishes every other fusion. -/
theorem fuse_outcome {c : Config Float} {m : Moderator Float} {h : History}
    (hc : ofConfig c = .ok s) (hm : m.Supplied) (hh : h.Plain) (source : List Char) (level : UInt8)
    (options : Options Float) :
    ((∀ p ∈ c.levels, p.level ≠ level) ∧
      ({ s with moderator := m }.fuse h source level options).1 =
        .error (.unknownLevel level s.policies.levels)) ∨
    ((∃ p ∈ c.levels, p.level = level) ∧ ¬ options.Finite ∧
      ∃ n ∈ options.named, Scalar.isFinite n.2 = false ∧
        ({ s with moderator := m }.fuse h source level options).1 =
          .error (.validation (.optionNotFinite n.1 (Scalar.text n.2)))) ∨
    ((∃ p ∈ c.levels, p.level = level) ∧ options.Finite ∧
      ∃ a, ({ s with moderator := m }.fuse h source level options).1 = .ok a) := by
  obtain ⟨hsound, hids, hperm⟩ := sound_of_ofConfig hc (Moderator.harmless_of_supplied hm)
  have hlevels : ∀ p : LevelPolicy Float, p ∈ c.levels ↔ p ∈ s.policies.policies :=
    fun p => hperm.mem_iff.symm
  rw [fuse_of_plain (s := { s with moderator := m }) hids hh]
  simp only [hlevels]
  rcases draft_cases hsound source level options with
    ⟨hnone, he⟩ | ⟨hsome, hinfinite, n, hn, hnot, he⟩ | ⟨hsome, hfinite, d, hd⟩
  · rw [he]
    exact Or.inl ⟨hnone, rfl⟩
  · rw [he]
    exact Or.inr (Or.inl ⟨hsome, hinfinite, n, hn, hnot, rfl⟩)
  · rw [hd]
    exact Or.inr (Or.inr ⟨hsome, hfinite, _, rfl⟩)

def loneConfig : Config Float :=
  ⟨[Catalog.plain "color_theory" 1 0.7 0.3 .visual], [⟨1, .conservative, 0.3, 0.4, 0.6⟩]⟩

theorem fuse_outcome_lone :
    ∃ s, ofConfig loneConfig = .ok s ∧ Moderator.Supplied (.clampTo 100.0) ∧ History.empty.Plain ∧
      ∃ a, ({ s with moderator := .clampTo 100.0 }.fuse .empty "spawn()".toList 1 .zero).1 = .ok a := by
  have htable : PolicyTable.ofList loneConfig.levels = .ok ⟨loneConfig.levels⟩ := by
    simp only [PolicyTable.ofList, loneConfig, List.mergeSort_singleton]
    decide +kernel
  have hconfig : ofConfig loneConfig = .ok (ofParts ⟨loneConfig.modules⟩ ⟨loneConfig.levels⟩) := by
    unfold ofConfig Config.parts
    rw [htable]
    rfl
  have hmoderator : Moderator.Supplied (.clampTo 100.0) := Or.inr ⟨100.0, by decide +kernel, rfl⟩
  refine ⟨_, hconfig, hmoderator, .empty, ?_⟩
  rcases fuse_outcome hconfig hmoderator .empty "spawn()".toList 1 .zero with
    ⟨hnone, -⟩ | ⟨-, hinfinite, -⟩ | ⟨-, -, ha⟩
  · exact absurd rfl (hnone _ List.mem_cons_self)
  · exact absurd Options.finite_zero hinfinite
  · exact ha

end Studio

end EffectFusion
