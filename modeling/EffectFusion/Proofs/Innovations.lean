import EffectFusion.Report
import EffectFusion.Proofs.Integrations
import EffectFusion.Proofs.Synthesis
import EffectFusion.Proofs.Template.Members
import EffectFusion.Proofs.Template.Objects

/-!
# Which modules enhance the output

A report decides by a case for each algorithm which modules are new, synthesis by asking whether an
algorithm is expressive, and a script carries what synthesis has put into a map.  All three mean the
creative and the quantum modules.  The module of a line of the report is what stands before the last
colon with a space behind it: no text that follows an id has a colon, whatever the id is.

* `namedModule?_line`          the module of a line;
* `no_colon_fixed`             numbers have no colon;
* `map_namedModule?_modules`   the modules of a report in order;
* `innovations_agree`          report, fused essence and script.
-/

namespace EffectFusion

open Text Number Script Template

/-! ### Names at the start of lines -/

/-- the text before the last colon with a space behind it -/
def beforeColon? : List Char → Option (List Char)
  | [] => none
  | c :: rest =>
    match beforeColon? rest with
    | some u => some (c :: u)
    | none => if c = ':' ∧ rest.head? = some ' ' then some [] else none

/-- the module that a line is about -/
def namedModule? (line : String) : Option String := (beforeColon? line.toList).map String.ofList

section

variable {s : List Char}

theorem beforeColon?_eq_none (h : ':' ∉ s) : beforeColon? s = none := by
  induction s with
  | nil => rfl
  | cons c s ih =>
    rw [List.mem_cons, not_or] at h
    rw [beforeColon?, ih h.2]
    exact if_neg fun hc => h.1 hc.1.symm

theorem beforeColon?_append (h : ':' ∉ s) (u : List Char) :
    beforeColon? (u ++ ':' :: ' ' :: s) = some u := by
  induction u with
  | nil =>
    have hnone : beforeColon? (' ' :: s) = none := beforeColon?_eq_none (by simp [h])
    rw [List.nil_append, beforeColon?, hnone]
    rfl
  | cons c u ih => rw [List.cons_append, beforeColon?, ih]

theorem namedModule?_eq_none {line : String} (h : ':' ∉ line.toList) : namedModule? line = none := by
  rw [namedModule?, beforeColon?_eq_none h]
  rfl

/-- an id may have colons in it, what follows has none -/
theorem namedModule?_line (id : String) {line : String} (hline : line.toList =
    id.toList ++ ':' :: ' ' :: s) (h : ':' ∉ s) : namedModule? line = some id := by
  rw [namedModule?, hline, beforeColon?_append h, Option.map_some, String.ofList_toList]

end

/-! ### Numbers -/

theorem isDigit_padZeros (width n : Nat) : ∀ c ∈ padZeros width (digitsOf n), isDigit c = true := by
  intro c hc
  rcases List.mem_append.1 hc with hc | hc
  · rw [(List.mem_replicate.1 hc).2]
    decide
  · exact isDigit_digitsOf n c hc

theorem no_colon_fixed (places : Nat) (x : Float) : ':' ∉ (fixed places x).toList := by
  unfold fixed
  split
  · unfold unbounded
    split
    · decide
    · split <;> decide
  · rename_i b _
    have hdigits := isDigit_padZeros (places + 1) (rounded places b)
    simp only [String.toList_ofList]
    generalize padZeros (places + 1) (digitsOf (rounded places b)) = ds at hdigits
    have hcolon : ':' ∉ ds := fun h => absurd (hdigits _ h) (by decide)
    have htake : ':' ∉ ds.take (ds.length - places) := fun h => hcolon (List.mem_of_mem_take h)
    have hdrop : ':' ∉ ds.drop (ds.length - places) := fun h => hcolon (List.mem_of_mem_drop h)
    have htext : ':' ∉ (if places = 0 then ds.take (ds.length - places)
        else ds.take (ds.length - places) ++ ['.'] ++ ds.drop (ds.length - places)) := by
      split
      · exact htake
      · simp [htake, hdrop]
    unfold signed
    split
    · exact fun h => (List.mem_cons.1 h).elim (by decide) htext
    · exact htext

/-! ### The report -/

theorem no_colon_animation (a : AnimationType) : ':' ∉ (Tag.name a).toList := by
  cases a <;> decide

namespace Report

/-- a line for each expressive module and for no other -/
theorem map_moduleInnovation? (e : Essence Float) (p : Profile Float) :
    (moduleInnovation? e p).map namedModule? =
      if p.algorithm.isExpressive then some (some p.moduleId) else none := by
  have hanimation := no_colon_animation e.core.animation
  have hweight := no_colon_fixed 2 p.weight
  have hquantum : namedModule? (p.moduleId ++ ": quantum fusion reshapes the "
      ++ Tag.name e.core.animation ++ " core") = some p.moduleId := by
    refine namedModule?_line (s := "quantum fusion reshapes the ".toList
      ++ (Tag.name e.core.animation).toList ++ " core".toList) p.moduleId (by simp) ?_
    simp [hanimation]
  have hcreative : namedModule? (p.moduleId ++ ": creative enhancement at weight "
      ++ fixed 2 p.weight) = some p.moduleId := by
    refine namedModule?_line (s := "creative enhancement at weight ".toList
      ++ (fixed 2 p.weight).toList) p.moduleId (by simp) ?_
    simp [hweight]
  unfold moduleInnovation?
  cases p.algorithm with
  | quantum => exact congrArg some hquantum
  | creative => exact congrArg some hcreative
  | _ => rfl

theorem map_namedModule?_modules (e : Essence Float) (ps : List (Profile Float)) :
    (ps.filterMap (moduleInnovation? e)).map namedModule? =
      (ps.filter (fun p => p.algorithm.isExpressive)).map (fun p => some p.moduleId) := by
  rw [List.map_filterMap]
  simp only [map_moduleInnovation?]
  induction ps with
  | nil => rfl
  | cons p ps ih =>
    rw [List.filterMap_cons, List.filter_cons, ih]
    cases p.algorithm.isExpressive <;> rfl

theorem overallInnovations_spec (b : Blueprint Float) :
    (overallInnovations b).length ≤ 2 ∧ ∀ line ∈ overallInnovations b, namedModule? line = none := by
  have hfixed : ':' ∉ "revolutionary restructuring of the original behaviour".toList := by decide
  have hprojected : ':' ∉ ("high creative evolution projected (" ++ fixed 0 b.expected.creative
      ++ "%)").toList := by
    have hnumber := no_colon_fixed 0 b.expected.creative
    simp [hnumber]
  unfold overallInnovations
  split <;> split <;>
    simp only [List.append_nil, List.nil_append, List.cons_append, List.length_cons, List.length_nil,
      List.forall_mem_cons, List.not_mem_nil, false_implies, implies_true, and_true,
      namedModule?_eq_none hfixed, namedModule?_eq_none hprojected] <;> decide

end Report

/-! ### The script -/

/-- **Enhancing modules.**  When the modules of a blueprint have different ids and its fused essence
has a script, the lines of the report but the last two or fewer are about the creative and quantum
modules in the order of the blueprint, and these are the keys of the enhanced properties and of the
one object that the script assigns to the member for them. -/
theorem innovations_agree {b : Blueprint Float} {g : List Char} (hids : b.moduleIds.Nodup)
    (hg : generate (synthesize b) = .ok g) (e : Essence Float) (r : Reconstruction) :
    let ids := (b.modules.filter (fun p => p.algorithm = .creative ∨ p.algorithm = .quantum)).map
      (·.moduleId)
    (∃ lines summary, (Report.of e b r).innovations = lines ++ summary ∧
      lines.map namedModule? = ids.map some ∧ summary.length ≤ 2 ∧
      ∀ line ∈ summary, namedModule? line = none) ∧
    (synthesize b).enhanced.keys.Perm ids ∧
    ∃ ts, valuesOf "enhancedProperties" (significant (lex g)) = [ts] ∧
      (objectKeys ts).Perm ids := by
  intro ids
  have hexpressive : ids =
      (b.modules.filter (fun p => p.algorithm.isExpressive)).map (·.moduleId) := by
    refine congrArg (List.map Profile.moduleId) (List.filter_congr fun p _ => ?_)
    cases p.algorithm <;> rfl
  have hnodup : ids.Nodup := hids.sublist (List.filter_sublist.map Profile.moduleId)
  have hkeys : (synthesize b).enhanced.keys.Perm ids := by
    refine (List.perm_ext_iff_of_nodup (Keyed.nodup_keys _) hnodup).2 fun id => ?_
    rw [hexpressive]
    exact mem_keys_enhancedOf
  refine ⟨⟨_, _, rfl, ?_, Report.overallInnovations_spec b⟩, hkeys, ?_⟩
  · rw [Report.map_namedModule?_modules, hexpressive, List.map_map]
    rfl
  · have hmember : ("enhancedProperties", toJson (synthesize b).enhanced) ∈
        Template.payloads (synthesize b) := by simp [Template.payloads]
    rw [eq_of_generate hg]
    refine ⟨_, Template.valuesOf_written (synthesize b) hmember, ?_⟩
    rwa [Json.objectKeys_keyed]

theorem writable_scrambled : scrambled.Writable where
  essence := ⟨by decide +kernel, by decide +kernel⟩
  modules p hp := by
    have hweight : ∀ p ∈ scrambled.modules, Scalar.isFinite p.weight = true := by decide +kernel
    have hamounts : ∀ p ∈ scrambled.modules, ∀ m ∈ [p.creative, p.behavioral, p.technical],
        ∀ e ∈ m.entries, Scalar.isFinite e.2 = true := by decide +kernel
    have hmaps := hamounts p hp
    simp only [List.forall_mem_cons] at hmaps
    exact ⟨hweight p hp, hmaps.1, hmaps.2.1, hmaps.2.2.1⟩
  intensity := by decide +kernel

theorem innovations_agree_scrambled : scrambled.moduleIds.Nodup ∧
    ∃ g, generate (synthesize scrambled) = .ok g ∧
      (∃ lines summary,
        (Report.of scrambled.essence scrambled ⟨g, g, []⟩).innovations = lines ++ summary ∧
        lines.map namedModule? = [some "waves", some "echo: near"] ∧ summary.length ≤ 2) ∧
      ∃ ts, valuesOf "enhancedProperties" (significant (lex g)) = [ts] ∧
        (objectKeys ts).Perm ["waves", "echo: near"] := by
  have hids : scrambled.moduleIds.Nodup := by decide
  have hg := generate_eq_ok (isFinite_numbers writable_scrambled)
  obtain ⟨⟨lines, summary, hlines, hmodules, hlength, -⟩, -, ts, hvalues, hkeys⟩ :=
    innovations_agree hids hg scrambled.essence ⟨_, _, []⟩
  exact ⟨hids, _, hg, ⟨lines, summary, hlines, hmodules, hlength⟩, ts, hvalues, hkeys⟩

end EffectFusion
