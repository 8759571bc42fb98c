import EffectFusion.Error
import EffectFusion.Json.Fused

/-!
# The script of a fused essence

The script is a class made of nested blocks.  A block is written between braces with its lines
two spaces further in, so braces of the script pair up by construction.  The data of the fused
essence stands in it as text, which has no form for a number that is not finite: `generate`
refuses such data and names the first such number.
-/

namespace EffectFusion

namespace Template

/-! ### Blocks -/

inductive Block
  | line (text : String)
  | blank
  /-- `head` before the opening brace and `tail` after the closing one -/
  | nest (head : String) (body : List Block) (tail : String)

def indent (depth : Nat) (text : String) : List Char :=
  List.replicate (2 * depth) ' ' ++ text.toList ++ ['\n']

mutual

def Block.write (depth : Nat) : Block → List Char
  | .line text => indent depth text
  | .blank => ['\n']
  | .nest head body tail =>
    indent depth (head ++ " \x7b") ++ writeAll (depth + 1) body ++ indent depth ("\x7d" ++ tail)

def writeAll (depth : Nat) : List Block → List Char
  | [] => []
  | b :: rest => b.write depth ++ writeAll depth rest

end

def lines (texts : List String) : List Block := texts.map .line

/-- a method with a blank line after it -/
def method (head : String) (body : List Block) : List Block := [.nest head body "", .blank]

/-! ### What depends on the kind of animation -/

def initializeBody : AnimationType → List Block
  | .particleSystem => lines [
      "// Particle pool sized by fusion intensity.",
      "this.particles = [];",
      "const count = Math.round(40 + 160 * this.fusionIntensity);"]
    ++ [.nest "for (let i = 0; i < count; i++)"
      (lines ["this.particles.push(this.spawnParticle());"]) ""]
  | .transformation3d => lines [
      "this.rotation = \x7b x: 0, y: 0, z: 0 \x7d;",
      "this.perspective = 400;"]
  | .textAnimation => lines [
      "this.text = this.options.text || 'fused';",
      "this.revealed = 0;"]
  | .transitionEffect => lines [
      "this.progress = 0;",
      "this.duration = this.options.duration || 1.5;"]
  | .customAnimation => lines ["this.phase = 0;"]

def updateBody : AnimationType → List Block
  | .particleSystem => [.nest "for (const p of this.particles)"
      (lines [
        "p.x += p.vx * deltaTime * 60;",
        "p.y += p.vy * deltaTime * 60;",
        "p.life -= deltaTime * 0.2;"]
      ++ [.nest "if (p.life <= 0)" (lines ["Object.assign(p, this.spawnParticle());"]) ""]) ""]
  | .transformation3d => lines [
      "this.rotation.x += deltaTime * 0.5 * (1 + this.fusionIntensity);",
      "this.rotation.y += deltaTime * 0.8;"]
  | .textAnimation => lines [
      "const speed = 12 * (1 + this.fusionIntensity);",
      "this.revealed = Math.min(this.text.length, this.revealed + deltaTime * speed);"]
  | .transitionEffect => lines [
      "this.progress = Math.min(1, this.progress + deltaTime / this.duration);"]
  | .customAnimation => lines ["this.phase += deltaTime * (1 + this.fusionIntensity);"]

def renderBody : AnimationType → List Block
  | .particleSystem => [.nest "for (const p of this.particles)"
      (lines [
        "ctx.globalAlpha = Math.max(0, p.life);",
        "ctx.fillRect(p.x, p.y, 2, 2);"]) "",
      .line "ctx.globalAlpha = 1;"]
  | .transformation3d => lines [
      "const size = Math.min(this.canvas.width, this.canvas.height) / 4;",
      "const depth = this.perspective + Math.sin(this.rotation.x) * size;",
      "const scale = this.perspective / depth;",
      "ctx.save();",
      "ctx.translate(this.canvas.width / 2, this.canvas.height / 2);",
      "ctx.rotate(this.rotation.y);",
      "ctx.scale(scale, scale);",
      "ctx.strokeRect(-size / 2, -size / 2, size, size);",
      "ctx.restore();"]
  | .textAnimation => lines [
      "const visible = this.text.slice(0, Math.floor(this.revealed));",
      "ctx.fillText(visible, 20, this.canvas.height / 2);"]
  | .transitionEffect => lines [
      "ctx.globalAlpha = this.progress;",
      "ctx.fillRect(0, 0, this.canvas.width * this.progress, this.canvas.height);",
      "ctx.globalAlpha = 1;"]
  | .customAnimation => lines [
      "const radius = 20 + 10 * Math.sin(this.phase);",
      "ctx.beginPath();",
      "ctx.arc(this.canvas.width / 2, this.canvas.height / 2, radius, 0, Math.PI * 2);",
      "ctx.fill();"]

/-- how a particle comes into being, for particle systems only -/
def spawnMethod (animation : AnimationType) : List Block :=
  if animation = .particleSystem then
    method "spawnParticle()" [.nest "return" (lines [
      "x: Math.random() * this.canvas.width,",
      "y: Math.random() * this.canvas.height,",
      "vx: (Math.random() - 0.5) * 2,",
      "vy: (Math.random() - 0.5) * 2,",
      "life: 1,"]) ";"]
  else []

/-- a limit on the time step, when some module cares for performance -/
def frameBudget (limited : Bool) : List Block :=
  if limited then lines [
    "// Frame budget: never integrate more than 50ms at once.",
    "deltaTime = Math.min(deltaTime, 0.05);"]
  else []

/-! ### What every script has -/

def enhancementsMethod : List Block :=
  method "applyEnhancements(deltaTime)" [
    .nest "for (const id of Object.keys(this.enhancedProperties))" (lines [
      "const property = this.enhancedProperties[id];",
      "// Each enhancement advances its own phase at its fused intensity.",
      "property.phase = (property.phase || 0) + deltaTime * property.intensity;"]) ""]

def startMethod : List Block :=
  method "start()" (
    [.nest "if (this.isRunning === true)" (lines ["return;"]) ""]
    ++ lines ["this.isRunning = true;", "const self = this;", "let last = 0;"]
    ++ [.nest "const loop = function (timestamp)" (
        [.nest "if (self.isRunning === false)" (lines ["return;"]) ""]
        ++ lines [
          "const deltaTime = last === 0 ? 0 : (timestamp - last) / 1000;",
          "last = timestamp;",
          "self.update(deltaTime);",
          "self.render();",
          "self.frameHandle = requestAnimationFrame(loop);"]) ";"]
    ++ lines ["this.frameHandle = requestAnimationFrame(loop);"])

def stopMethod : List Block := [
  .nest "stop()" (
    lines ["this.isRunning = false;"]
    ++ [.nest "if (this.frameHandle !== null)" (lines [
      "cancelAnimationFrame(this.frameHandle);",
      "this.frameHandle = null;"]) ""]) ""]

/-! ### The script -/

/-- the structured data that the script carries, by the member that holds it -/
def payloads (f : FusedEssence Float) : List (String × Json) := [
  ("originalEssence", toJson f.essence),
  ("enhancedProperties", toJson f.enhanced),
  ("moduleIntegrations", toJson f.integrations),
  ("evolution", toJson f.evolution)]

def header (f : FusedEssence Float) : List Block := lines [
  "/**",
  " * Fused visual effect.",
  " * Strategy: " ++ Tag.name f.strategy ++ ", reconstruction level " ++ toString f.level.toNat
    ++ ", " ++ toString f.integrations.size ++ " integrated module(s).",
  " * Source behaviour: " ++ Tag.name f.essence.core.animation ++ ".",
  " */"]

def constructorMethod (f : FusedEssence Float) : List Block :=
  method "constructor(canvas, options = \x7b\x7d)" (
    lines ["this.canvas = canvas;", "this.ctx = canvas.getContext('2d');",
      "this.options = options;"]
    ++ (payloads f).map (fun p => .line ("this." ++ p.1 ++ " = " ++ p.2.render ++ ";"))
    ++ lines [
      "this.fusionIntensity = " ++ Number.plain f.intensity ++ ";",
      "this.time = 0;",
      "this.isRunning = false;",
      "this.frameHandle = null;",
      "this.initialize();"])

/-- some module cares for performance -/
def caresForPerformance (f : FusedEssence Float) : Bool :=
  f.integrations.values.any (fun m => m.specialization = .performance)

def updateMethod (f : FusedEssence Float) : List Block :=
  method "update(deltaTime)" (
    frameBudget (caresForPerformance f)
    ++ lines ["this.time += deltaTime;"]
    ++ updateBody f.essence.core.animation
    ++ lines ["this.applyEnhancements(deltaTime);"])

def renderMethod (animation : AnimationType) : List Block :=
  method "render()" (
    lines ["const ctx = this.ctx;", "ctx.clearRect(0, 0, this.canvas.width, this.canvas.height);"]
    ++ renderBody animation)

def script (f : FusedEssence Float) : List Block :=
  let animation := f.essence.core.animation
  header f
    ++ [.nest "class FusedEffect" (
        constructorMethod f
        ++ method "initialize()" (initializeBody animation)
        ++ spawnMethod animation
        ++ updateMethod f
        ++ enhancementsMethod
        ++ renderMethod animation
        ++ startMethod
        ++ stopMethod) "",
      .blank,
      .nest "if (typeof module !== 'undefined')" (lines ["module.exports = FusedEffect;"]) ""]

/-! ### Numbers that have no text -/

def propertyNumbers {F : Type} (e : String × EnhancedProperty F) : List (String × F) := [
  (e.1 ++ ".intensity", e.2.intensity),
  (e.1 ++ ".aesthetic", e.2.aesthetic),
  (e.1 ++ ".innovation", e.2.innovation)]

def integrationNumbers {F : Type} (e : String × Integration F) : List (String × F) :=
  (e.1 ++ ".weight", e.2.weight)
    :: (e.2.behavioral.entries ++ e.2.technical.entries).map (fun a => (e.1 ++ "." ++ a.1, a.2))

/-- every number of a fused essence with the name that messages give it -/
def numbers {F : Type} (f : FusedEssence F) : List (String × F) :=
  f.essence.unitScores
    ++ [("estimated_fps", f.essence.technical.performance.fps), ("fusion_intensity", f.intensity)]
    ++ f.evolution.named
    ++ f.enhanced.entries.flatMap propertyNumbers
    ++ f.integrations.entries.flatMap integrationNumbers

def firstNotFinite? {F : Type} [Scalar F] (f : FusedEssence F) : Option String :=
  ((numbers f).find? (fun n => !Scalar.isFinite n.2)).map (·.1)

end Template

open Template in
def generate (f : FusedEssence Float) : Except FusionError (List Char) :=
  match firstNotFinite? f with
  | some name => .error (.reconstruction (.notFinite name))
  | none => .ok (writeAll 0 (script f))

end EffectFusion
