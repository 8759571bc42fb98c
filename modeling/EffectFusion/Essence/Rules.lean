import EffectFusion.Essence.Basic
import EffectFusion.Scalar
import EffectFusion.Text.Pattern

/-!
# What to look for in a source text

Tables of patterns with what each of them shows.  In a table of kinds the first pattern that
occurs counts; in a table of features and in a table of amounts each does.
-/

namespace EffectFusion.Essence

open Text Text.Pattern

/-! ### Kinds -/

def animationRules : List (Pattern × AnimationType) := [
  (anyCaseOf ["particle", "emitter", "spawn"], .particleSystem),
  (any [anyCase "three.", anyCase "webgl", anyCase "perspective",
      chain [anyCase "rotate", oneOfAnyCase "xyz", .edge], wholeWord "3d", anyCase "translate3d",
      wholeWord "mesh", anyCase "camera"],
    .transformation3d),
  (any [anyCase "filltext", wholeWord "font", anyCase "letter", anyCase "typewriter",
      anyCase "glyph", wholeWord "text"],
    .textAnimation),
  (anyCaseOf ["transition", "fade", "slide", "morph"], .transitionEffect)]

def aestheticRules : List (Pattern × Aesthetic) := [
  (anyCaseOf ["glow", "neon", "bloom", "shadowblur"], .luminous),
  (anyCaseOf ["noise", "wave", "flow", "organic"], .organic),
  (any [anyCase "gradient", wholeWord "hue", anyCase "rainbow", anyCase "hsl"], .chromatic),
  (anyCaseOf ["grid", "polygon", "rect", "triangle", "square"], .geometric)]

/-! ### Features -/

/-- a member of the mathematics object, in exact spelling -/
def mathMember (names : List String) : Pattern :=
  chain [exact "Math.", exactOf names, .edge]

def movementRules : List (Pattern × Movement) := [
  (any [anyCase "translate", anyCase "linear", anyCase "moveto", anyCase "lineto",
      chain [.edge, oneOfAnyCase "xy", blanks, exact "+="]],
    .linear),
  (any [anyCase "rotat", anyCase "orbit", wholeWord "angle", anyCase "radius"], .circular),
  (any [chain [anyCase "math.", anyCaseOf ["sin", "cos"], .edge], anyCase "wave",
      anyCase "oscillat", anyCase "pulse"],
    .oscillating),
  (anyCaseOf ["math.random", "noise", "jitter", "chaos"], .random),
  (any [chain [.edge, anyCase "ease"], anyCase "cubic-bezier", anyCase "tween", anyCase "lerp"],
    .easing),
  (any [anyCase "gravity", anyCase "velocity", anyCase "friction", anyCase "acceleration",
      chain [.edge, anyCase "v", oneOfAnyCase "xy", .edge]],
    .physicsBased)]

def isHexDigit (c : Char) : Bool :=
  isDigit c || ('a' ≤ c && c ≤ 'f') || ('A' ≤ c && c ≤ 'F')

/-- a letter or none -/
def maybe (c : Char) : Pattern := .run (fun d => caseless d = c) 0 (some 1)

def visualRules : List (Pattern × String) := [
  (any [anyCase "color", anyCase "fillstyle", anyCase "strokestyle",
      chain [anyCase "rgb", maybe 'a', exact "("], chain [anyCase "hsl", maybe 'a', exact "("],
      chain [exact "#", .run isHexDigit 3 (some 8), .edge]],
    "color"),
  (anyCaseOf ["opacity", "globalalpha", "alpha"], "opacity"),
  (anyCase "scale", "scale"),
  (anyCase "rotat", "rotation"),
  (anyCaseOf ["blur", "filter"], "blur"),
  (anyCaseOf ["glow", "shadowblur", "shadowcolor", "bloom"], "glow"),
  (anyCase "gradient", "gradient")]

def mathematicsRules : List (Pattern × String) := [
  (chain [exact "Math.", any [exact "sin", exact "cos", exact "tan",
      chain [exact "atan", .run (· = '2') 0 (some 1)]], .edge],
    "trigonometry"),
  (anyCaseOf ["math.random", "noise"], "randomness"),
  (any [anyCase "lerp", chain [.edge, anyCase "mix("], anyCase "interpolat",
      anyCase "smoothstep"],
    "interpolation"),
  (anyCaseOf ["velocity", "gravity", "acceleration", "friction"], "physics"),
  (any [anyCase "matrix", chain [.edge, anyCase "mat", oneOf "34", .edge],
      chain [.edge, anyCase "vec", oneOf "234", .edge], chain [.edge, anyCase "dot("],
      chain [.edge, anyCase "cross("]],
    "linear_algebra"),
  (mathMember ["exp", "pow", "sqrt", "log"], "exponential")]

def platformRules : List (Pattern × Platform) := [
  (any [chain [exact "getContext(", blanks, oneOf "'\"", exact "2d"],
      exact "CanvasRenderingContext2D", chain [.edge, exact "ctx."]],
    .canvas2d),
  (anyCaseOf ["webgl", "three."], .webgl),
  (any [anyCase "@keyframes", anyCase ".style.",
      chain [anyCase "transition", blanks, exact ":"],
      chain [anyCase "animation", blanks, exact ":"]],
    .css),
  (any [anyCase "<svg", anyCase "createElementNS", wholeWord "svg"], .svg),
  (exactOf ["document.", "querySelector", "getElementById"], .dom),
  (exact ".animate(", .webAnimations)]

def memoryHigh : Pattern :=
  any [exact "Float32Array", exact "Uint8ClampedArray", exact "ImageData", exact "createBuffer",
    chain [exact "new Array(", blanks, .run isWordDigit 4 none]]

def memoryMedium : Pattern :=
  any [exact ".push(", exact "new Array", chain [exact "[", blanks, exact "]"]]

/-! ### Amounts -/

section

variable {F : Type} [Scalar F]

def energyRules : List (Pattern × F) := [
  (anyCaseOf ["fast", "rapid", "explo", "burst", "intense"], 0.2),
  (anyCaseOf ["bounce", "shake", "pulse", "flash"], 0.1),
  (exact "requestAnimationFrame", 0.1),
  (anyCaseOf ["slow", "gentle", "calm", "subtle", "soft"], -0.2)]

def complexityRules : List (Pattern × F) := [
  (any [chain [.edge, exactOf ["for", "while"], blanks, exact "("], exact ".forEach(",
      exact ".map("],
    0.2),
  (chain [exact "Math.", .run isWordChar 1 none], 0.2),
  (any [chain [.edge, exact "class", .run isBlank 1 none, .run isWordChar 1 none],
      exact "prototype"],
    0.2),
  (anyCaseOf ["shader", "glsl", "webgl"], 0.2),
  (anyCaseOf ["recurs", "fractal"], 0.1)]

def innovationRules : List (Pattern × F) := [
  (anyCaseOf ["shader", "glsl", "webgl"], 0.2),
  (anyCaseOf ["noise", "perlin", "simplex", "fractal"], 0.2),
  (anyCase "particle", 0.1),
  (anyCaseOf ["gravity", "velocity", "physics"], 0.1),
  (anyCaseOf ["audio", "fft", "frequency"], 0.1)]

def optimizationRules : List (Pattern × F) := [
  (exactOf ["setInterval", "setTimeout"], 0.2),
  (exactOf ["getImageData", "putImageData"], 0.2),
  (exact "shadowBlur", 0.1),
  (exactOf ["querySelector", "getElementById"], 0.1),
  (exact "requestAnimationFrame", -0.1)]

def fpsRules : List (Pattern × F) := [
  (any [anyCase "shadowblur", chain [anyCase "filter", blanks, oneOf ":="], anyCase "blur("],
    -15.0),
  (exactOf ["getImageData", "putImageData"], -10.0),
  (chain [.edge, exact "for", blanks, exact "(", upTo ')', exact ")", blanks, exact "\x7b",
      upTo '\x7d', .edge, exact "for", blanks, exact "("],
    -10.0),
  (exactOf ["setInterval", "setTimeout"], -5.0),
  (exact "requestAnimationFrame", 10.0),
  (any [anyCase "translate3d", anyCase "will-change",
      chain [anyCase "transform", blanks, exact ":"]],
    10.0)]

end

end EffectFusion.Essence
