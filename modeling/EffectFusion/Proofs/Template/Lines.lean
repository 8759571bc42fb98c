import EffectFusion.Proofs.Template.Assignments

/-!
# The lines of generated scripts

Every line of a script is sound: it is read as a statement whose tokens are orderly.  Up to the
method `start` no phrase stands in the lines, whatever the animation and the data are.  What comes
after is the same in every script.

* `Pervades.firstMethods`   what the lines before the method `start` have from their parts;
* `calm_firstMethods`       no phrase stands in them;
* `sound_lastMethods`       the lines from there on.
-/

namespace EffectFusion.Template

open Text Number Script

/-! ### Before the method `start` -/

/-- the parts of the class that only depend on the animation -/
def animatedParts (a : AnimationType) : List (List Block) :=
  [method "initialize()" (initializeBody a), spawnMethod a, updateBody a, renderMethod a]

/-- the lines of the constructor before the structured data -/
def openingLines : List Block :=
  lines ["this.canvas = canvas;", "this.ctx = canvas.getContext('2d');", "this.options = options;"]

/-- the lines of the constructor after all data -/
def settledLines : List Block :=
  lines ["this.time = 0;", "this.isRunning = false;", "this.frameHandle = null;",
    "this.initialize();"]

/-- the parts of the class that are the same in every script -/
def fixedParts : List (List Block) :=
  [method "constructor(canvas, options = \x7b\x7d)" [], openingLines, settledLines,
    method "update(deltaTime)" [], frameBudget true, frameBudget false,
    lines ["this.time += deltaTime;"], lines ["this.applyEnhancements(deltaTime);"],
    enhancementsMethod]

/-- the methods between the constructor and the method `start` -/
def middleMethods (f : FusedEssence Float) : List Block :=
  method "initialize()" (initializeBody f.essence.core.animation)
    ++ spawnMethod f.essence.core.animation ++ updateMethod f ++ enhancementsMethod
    ++ renderMethod f.essence.core.animation

/-- the lines of the constructor after the structured data -/
def closingLines (f : FusedEssence Float) : List Block :=
  .line (assignment "fusionIntensity" (plain f.intensity)) :: settledLines

theorem constructorMethod_eq (f : FusedEssence Float) :
    constructorMethod f = method "constructor(canvas, options = \x7b\x7d)"
      (openingLines ++ (payloads f).map (fun p => .line (assignment p.1 p.2.render))
        ++ closingLines f) := rfl

/-- what stands in the class before the method `start` -/
def firstMethods (f : FusedEssence Float) : List Block := constructorMethod f ++ middleMethods f

/-- blocks have the property when their parts do, and the lines around the data have it -/
structure Pervades (P : List Block → Prop) : Prop where
  append : ∀ {bs cs : List Block}, P bs → P cs → P (bs ++ cs)
  method : ∀ {head : String} {body : List Block}, P (method head []) → P body → P (method head body)
  animated : ∀ a, ∀ part ∈ animatedParts a, P part
  fixed : ∀ part ∈ fixedParts, P part

namespace Pervades

variable {P : List Block → Prop}

theorem updateMethod (h : Pervades P) (f : FusedEssence Float) : P (updateMethod f) := by
  have hfixed := h.fixed
  simp only [fixedParts, List.forall_mem_cons] at hfixed
  obtain ⟨-, -, -, hhead, hlimited, hfree, htime, henhance, -⟩ := hfixed
  have hbudget : ∀ limited, P (frameBudget limited) := Bool.forall_bool.2 ⟨hfree, hlimited⟩
  have hbody : P (updateBody f.essence.core.animation) :=
    h.animated f.essence.core.animation _ (by simp [animatedParts])
  exact h.method hhead (h.append (h.append (h.append (hbudget _) htime) hbody) henhance)

theorem middleMethods (h : Pervades P) (f : FusedEssence Float) : P (middleMethods f) := by
  have hparts := h.animated f.essence.core.animation
  simp only [animatedParts, List.forall_mem_cons] at hparts
  obtain ⟨hsetup, hspawn, -, hrender, -⟩ := hparts
  have henhancements : P enhancementsMethod := h.fixed _ (by simp [fixedParts])
  exact h.append (h.append (h.append (h.append hsetup hspawn) (h.updateMethod f)) henhancements)
    hrender

theorem closingLines (h : Pervades P) (f : FusedEssence Float)
    (hnumber : P [.line (assignment "fusionIntensity" (plain f.intensity))]) :
    P (closingLines f) :=
  h.append hnumber (h.fixed settledLines (by simp [fixedParts]))

theorem firstMethods (h : Pervades P) (f : FusedEssence Float)
    (hdata : ∀ m ∈ dataMembers, ∀ v : Json, P [.line (assignment m v.render)])
    (hnumber : P [.line (assignment "fusionIntensity" (plain f.intensity))]) :
    P (firstMethods f) := by
  have hfixed := h.fixed
  simp only [fixedParts, List.forall_mem_cons] at hfixed
  obtain ⟨hconstructor, hopening, -⟩ := hfixed
  have hall : ∀ ps : List (String × Json), (∀ p ∈ ps, p.1 ∈ dataMembers) →
      P (openingLines ++ ps.map (fun p => .line (assignment p.1 p.2.render))) := by
    intro ps
    induction ps using List.reverseRecOn with
    | nil => exact fun _ => by simpa using hopening
    | append_singleton ps p ih =>
      intro hps
      rw [List.map_append, ← List.append_assoc]
      exact h.append (ih fun q hq => hps q (List.mem_append_left _ hq))
        (hdata p.1 (hps p (by simp)) p.2)
  refine h.append ?_ (h.middleMethods f)
  rw [constructorMethod_eq]
  exact h.method hconstructor
    (h.append (hall (payloads f) (by simp [payloads, dataMembers])) (h.closingLines f hnumber))

end Pervades

theorem bare_animatedParts (a : AnimationType) : ∀ part ∈ animatedParts a, Bare part := by
  cases a <;> decide +kernel

theorem bare_fixedParts : ∀ part ∈ fixedParts, Bare part := by decide +kernel

theorem pervades_bare : Pervades Bare :=
  ⟨Bare.append, bare_method, bare_animatedParts, bare_fixedParts⟩

theorem pervades_calm : Pervades fun bs => calm bs = true :=
  ⟨calm_append, calm_method, fun a part h => (bare_animatedParts a part h).isCalm,
    fun part h => (bare_fixedParts part h).isCalm⟩

theorem bare_number (x : Float) : Bare [.line (assignment "fusionIntensity" (plain x))] := by
  obtain ⟨ts, hts, hassigned, -⟩ := assigned_plain x
  exact bare_intensity hts hassigned

theorem calm_firstMethods (f : FusedEssence Float) : calm (firstMethods f) = true :=
  pervades_calm.firstMethods f
    (fun _ hm v => calm_assignment hm (Json.render_tokens_toList v) (assigned_tokens v))
    (bare_number f.intensity).isCalm

/-! ### From there on -/

/-- what stands in the class from the method `start` on -/
def lastMethods : List Block := startMethod ++ stopMethod

/-- what stands after the class -/
def exportBlocks : List Block :=
  [.nest "if (typeof module !== 'undefined')" (lines ["module.exports = FusedEffect;"]) ""]

theorem sound_lastMethods : sound lastMethods = true ∧ sound exportBlocks = true := by decide +kernel

/-- the tokens from the method `start` on, the same in every script -/
def lastTokens : List Token :=
  tokensOf lastMethods ++ lineTokens ("\x7d" ++ "") ++ tokensOf exportBlocks

/-- in them the passes rewrite every phrase -/
theorem edited_lastTokens :
    elided [] (arrowed (some (.mark "\x7d")) (lastTokens.flatMap written)) = edited lastTokens ∧
      (edited lastTokens).head? = some (.name "start") ∧
      ∀ m ∈ shortMembers, Without m (edited lastTokens) := by decide +kernel

end EffectFusion.Template
