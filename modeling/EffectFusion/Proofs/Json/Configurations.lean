import EffectFusion.Json.Config
import EffectFusion.Proofs.Config
import EffectFusion.Proofs.Json.Codecs

/-!
# The text of a configuration

A configuration that is accepted is read from its pretty text as it was: modules and levels in
their order, ids with whatever characters they have, a priority or none.

* `travels_config`   a configuration whose numbers read back survives its text;
* `ofText_text`      and a sound one is accepted again.
-/

namespace EffectFusion.Json

theorem travels_some {α : Type} [Written α] [Readable α] {a : α} (h : Travels a)
    (hnull : toJson a ≠ .null) : Travels (some a) := by
  refine ⟨h.faithful, ?_⟩
  have hdecoded := h.decoded
  show ofJson? (α := Option α) (toJson a) = some (some a)
  generalize toJson a = v at hdecoded hnull
  cases v with
  | null => exact absurd rfl hnull
  | _ => exact congrArg (Option.map some) hdecoded

/-- the field of the priority is left out when there is none -/
theorem travels_enhancement {m : Enhancement Float} (h1 : ReadsBack m.creative)
    (h2 : ReadsBack m.technical) : Travels m := by
  obtain ⟨id, level, creative, technical, specialization, universal, priority⟩ := m
  have h1 := travels_float h1
  have h2 := travels_float h2
  have h3 := travels_string id
  have h4 := travels_uint8 level
  have h5 := travels_tag specialization
  have h6 := travels_bool universal
  cases priority with
  | none =>
    refine travels_record_missing "priority" rfl (fun _ => rfl) ?_ ?_ ?_ ?_
    · simp [present]
    · simp [present]
    · simp [present, h1.faithful, h2.faithful, h3.faithful, h4.faithful, h5.faithful, h6.faithful]
    · simp [present, required_eq h1, required_eq h2, required_eq h3, required_eq h4, required_eq h5,
        optional_eq h6, optional_missing]
  | some p =>
    have h7 := travels_int32 p
    have h8 : optional none (some (toJson p)) = some (some p) :=
      optional_eq (travels_some h7 (by simp [toJson])) none
    refine travels_record rfl (fun _ => rfl) ?_ ?_ ?_
    · simp [present]
    · simp [present, h1.faithful, h2.faithful, h3.faithful, h4.faithful, h5.faithful, h6.faithful,
        h7.faithful]
    · simp [present, required_eq h1, required_eq h2, required_eq h3, required_eq h4, required_eq h5,
        optional_eq h6, h8]

theorem travels_policy {p : LevelPolicy Float} (h1 : ReadsBack p.intensity)
    (h2 : ReadsBack p.creativity) (h3 : ReadsBack p.technical) : Travels p := by
  have h1 := travels_float h1
  have h2 := travels_float h2
  have h3 := travels_float h3
  have h4 := travels_uint8 p.level
  have h5 := travels_tag p.strategy
  refine travels_record rfl (fun _ => rfl) ?_ ?_ ?_
  · simp
  · simp [h1.faithful, h2.faithful, h3.faithful, h4.faithful, h5.faithful]
  · simp [required_eq h1, required_eq h2, required_eq h3, required_eq h4, required_eq h5]

theorem travels_config {c : Config Float} (hmodules : ∀ m ∈ c.modules, Travels m)
    (hlevels : ∀ p ∈ c.levels, Travels p) : Travels c := by
  have h1 := travels_list hmodules
  have h2 := travels_list hlevels
  refine travels_record rfl (fun _ => rfl) ?_ ?_ ?_
  · simp
  · simp [h1.faithful, h2.faithful]
  · simp [required_eq h1, required_eq h2]

end EffectFusion.Json

namespace EffectFusion.Config

open Json

def numbers {F : Type} (c : Config F) : List F :=
  c.modules.flatMap (fun m => [m.creative, m.technical])
    ++ c.levels.flatMap (fun p => [p.intensity, p.creativity, p.technical])

theorem travels_numbers {c : Config Float} (h : ∀ x ∈ c.numbers, ReadsBack x) : Travels c := by
  have hmodule : ∀ m ∈ c.modules, ∀ x ∈ [m.creative, m.technical], ReadsBack x := by
    intro m hm x hx
    exact h x (List.mem_append_left _ (List.mem_flatMap.2 ⟨m, hm, hx⟩))
  have hlevel : ∀ p ∈ c.levels, ∀ x ∈ [p.intensity, p.creativity, p.technical], ReadsBack x := by
    intro p hp x hx
    exact h x (List.mem_append_right _ (List.mem_flatMap.2 ⟨p, hp, hx⟩))
  refine travels_config (fun m hm => ?_) (fun p hp => ?_)
  · have hm := hmodule m hm
    simp only [List.forall_mem_cons] at hm
    exact travels_enhancement hm.1 hm.2.1
  · have hp := hlevel p hp
    simp only [List.forall_mem_cons] at hp
    exact travels_policy hp.1 hp.2.1 hp.2.2.1

/-- **An accepted configuration survives its text.**  Reading its pretty text accepts it again, and
what is read is the configuration itself: every field, whatever characters the ids have, and every
list in its order.  Each of its numbers has to be read from its own text, which is what a reader of
numbers promises. -/
theorem ofText_text {c : Config Float} (hsound : c.check = .ok ())
    (hnumbers : ∀ x ∈ c.numbers, ReadsBack x) : Config.ofText c.text = .ok c := by
  have hread : (read? c.text).bind ofJson? = some c := (travels_numbers hnumbers).prettyText
  rw [Config.ofText, hread]
  show c.check.map (fun _ => c) = .ok c
  rw [hsound]
  rfl

/-- ids with quotes, control characters and letters of other scripts, the higher level first -/
def decorated : Config Float :=
  ⟨[⟨"say \"glow\"\\", 2, 0.5, 0.25, .visual, true, some (-2147483648)⟩,
      ⟨"\t\x07\x7f", 1, 1.0, 0.0, .harmony, false, none⟩,
      ⟨"эффект 効果", 255, 0.125, 0.75, .motion, false, some 7⟩],
    [⟨255, .revolutionary, 1.0, 0.75, 0.5⟩, ⟨2, .balanced, 0.5, 0.25, 0.0⟩]⟩

theorem ofText_text_decorated :
    decorated.check = .ok () ∧ (∀ x ∈ decorated.numbers, ReadsBack x) ∧
      Config.ofText decorated.text = .ok decorated := by
  have hvalid : decorated.Valid := {
    levels := by decide
    differentLevels := by decide
    coefficients := by decide +kernel
    ids := by
      simp only [← isBlankText_eq_false_iff]
      decide +kernel
    covered := by decide
    weights := by decide +kernel
    differentIds := by decide +kernel }
  have hsound : decorated.check = .ok () := check_eq_ok_iff.2 (parts_of_valid hvalid)
  have hnumbers : ∀ x ∈ decorated.numbers, ReadsBack x := by
    have hlist : decorated.numbers = [0.5, 0.25, 1.0, 0.0, 0.125, 0.75, 1.0, 0.75, 0.5, 0.5, 0.25,
      0.0] := rfl
    rw [hlist]
    simp only [List.forall_mem_cons]
    exact ⟨rfl, rfl, rfl, rfl, rfl, rfl, rfl, rfl, rfl, rfl, rfl, rfl, fun _ h => nomatch h⟩
  exact ⟨hsound, hnumbers, ofText_text hsound hnumbers⟩

end EffectFusion.Config
