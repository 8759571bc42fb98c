import EffectFusion.Blueprint
import EffectFusion.Number.Literal

/-!
# Arguments of the command line

Arguments are read from left to right; the first fault or call for help counts.  An option takes
its value from after its equals sign or from the next argument.  A value that starts with a hyphen
must stand after the equals sign, unless it is a negative numeral for an option that takes
numbers.  No option may come twice.
-/

namespace EffectFusion.Command

open Number

inductive ValueKind
  | nothing
  | path
  | level
  | number
  deriving DecidableEq, Repr

inductive Value
  | nothing
  | path (p : String)
  | level (n : UInt8)
  | number (x : Float)

/-- why no command is run -/
inductive Stop
  /-- the arguments fit no command -/
  | misuse
  | version
  /-- help on the whole or on a command was asked for -/
  | help (command : Option String)
  deriving DecidableEq, Repr

structure FuseArguments where
  source : String
  level : UInt8
  options : Options Float
  config : Option String
  out : Option String
  report : Option String
  textReport : Bool

inductive Request
  | fuse (arguments : FuseArguments)
  | modules (level : UInt8) (config : Option String)
  | levels (config : Option String)

def optionsOf : String → Option (List (String × ValueKind))
  | "fuse" => some [("in", .path), ("level", .level), ("creativity-boost", .number),
      ("performance-priority", .number), ("innovation-level", .number), ("config", .path),
      ("out", .path), ("report", .path), ("text-report", .nothing)]
  | "modules" => some [("level", .level), ("config", .path)]
  | "levels" => some [("config", .path)]
  | _ => none

/-! ### Values -/

def readValue? : ValueKind → String → Option Value
  | .nothing, _ => none
  | .path, s => if s.isEmpty then none else some (.path s)
  | .level, s =>
    match readWhole? s with
    | some n => if 0 ≤ n ∧ n < 256 then some (.level (UInt8.ofNat n.toNat)) else none
    | none => none
  | .number, s => (readLoose? s).map .number

/-- digits with at most one point, which is not the first character and comes before an exponent;
the mark of the exponent is neither first nor last -/
def looksNumeric (pointSeen markSeen first : Bool) : List Char → Bool
  | [] => true
  | c :: rest =>
    if Text.isDigit c then looksNumeric pointSeen markSeen false rest
    else if c = '.' ∧ !pointSeen ∧ !markSeen ∧ !first then looksNumeric true markSeen false rest
    else if c = 'e' ∧ !markSeen ∧ !first ∧ rest ≠ [] then looksNumeric pointSeen true false rest
    else false

/-- the next argument can be the value of an option of this kind -/
def standsAsValue (kind : ValueKind) (s : String) : Bool :=
  match s.toList with
  | ['-'] => true
  | '-' :: rest => kind = .number && looksNumeric false false true rest
  | _ => true

/-! ### Options -/

/-- an argument of two hyphens: name and what follows the equals sign -/
def longName (rest : List Char) : String × Option String :=
  match rest.dropWhile (· ≠ '=') with
  | _ :: value => (String.ofList (rest.takeWhile (· ≠ '=')), some (String.ofList value))
  | [] => (String.ofList rest, none)

abbrev Seen := List (String × Value)

def note (seen : Seen) (name : String) (v : Value) : Except Stop Seen :=
  if seen.any (fun s => s.1 = name) then .error .misuse else .ok (seen ++ [(name, v)])

/-- what short options a command knows besides help: more output, and the version of the whole -/
def shortOptions (command : Option String) (seen : Seen) : List Char → Except Stop Seen
  | [] => .ok seen
  | 'v' :: rest => do
    let seen ← note seen "verbose" .nothing
    shortOptions command seen rest
  | 'h' :: _ => .error (.help command)
  | 'V' :: _ => .error (if command = none then .version else .misuse)
  | _ :: _ => .error .misuse

/-- the options of a command; nothing but options may come -/
def readOptions (command : String) (known : List (String × ValueKind)) (seen : Seen) :
    List String → Except Stop Seen
  | [] => .ok seen
  | arg :: rest =>
    match arg.toList with
    | ['-', '-'] => if rest = [] then .ok seen else .error .misuse
    | '-' :: '-' :: name =>
      let (name, attached) := longName name
      match (("verbose", .nothing) :: known).find? (fun k => k.1 = name), attached with
      | none, none => .error (if name = "help" then .help (some command) else .misuse)
      | none, some _ => .error .misuse
      | some (_, .nothing), some _ => .error .misuse
      | some (_, .nothing), none => do
        let seen ← note seen name .nothing
        readOptions command known seen rest
      | some (_, kind), some text =>
        match readValue? kind text with
        | some v => do
          let seen ← note seen name v
          readOptions command known seen rest
        | none => .error .misuse
      | some (_, kind), none =>
        match rest with
        | text :: rest =>
          if standsAsValue kind text then
            match readValue? kind text with
            | some v => do
              let seen ← note seen name v
              readOptions command known seen rest
            | none => .error .misuse
          else .error .misuse
        | [] => .error .misuse
    | '-' :: c :: short => do
      let seen ← shortOptions (some command) seen (c :: short)
      readOptions command known seen rest
    | _ => .error .misuse

/-! ### Commands -/

def value? (seen : Seen) (name : String) : Option Value :=
  (seen.find? (fun s => s.1 = name)).map (·.2)

def pathOf? (seen : Seen) (name : String) : Option String :=
  match value? seen name with
  | some (.path p) => some p
  | _ => none

def levelOf? (seen : Seen) : Option UInt8 :=
  match value? seen "level" with
  | some (.level n) => some n
  | _ => none

def numberOf (seen : Seen) (name : String) : Float :=
  match value? seen name with
  | some (.number x) => x
  | _ => 0.0

/-- the command of its options, if none is missing that it needs -/
def command? (name : String) (seen : Seen) : Option Request :=
  match name with
  | "fuse" => do
    let source ← pathOf? seen "in"
    let level ← levelOf? seen
    pure (.fuse {
      source := source
      level := level
      options := ⟨numberOf seen "creativity-boost", numberOf seen "performance-priority",
        numberOf seen "innovation-level"⟩
      config := pathOf? seen "config"
      out := pathOf? seen "out"
      report := pathOf? seen "report"
      textReport := (value? seen "text-report").isSome })
  | "modules" => (levelOf? seen).map (fun n => .modules n (pathOf? seen "config"))
  | "levels" => some (.levels (pathOf? seen "config"))
  | _ => none

/-- the command that asks for help on another one -/
def helpTopic : List String → Stop
  | [] => .help none
  | ["help"] => .help (some "help")
  | [name] => if (optionsOf name).isSome then .help (some name) else .misuse
  | _ => .misuse

def readCommand (name : String) (rest : List String) : Except Stop Request :=
  match optionsOf name with
  | none => .error (if name = "help" then helpTopic rest else .misuse)
  | some known =>
    match readOptions name known [] rest with
    | .error e => .error e
    | .ok seen =>
      match command? name seen with
      | some c => .ok c
      | none => .error .misuse

/-- the command that the arguments spell; options of the whole come before its name -/
def read (seen : Seen) : List String → Except Stop Request
  | [] => .error .misuse
  | arg :: rest =>
    match arg.toList with
    | ['-', '-'] => .error .misuse
    | ['-', '-', 'v', 'e', 'r', 'b', 'o', 's', 'e'] => do
      let seen ← note seen "verbose" .nothing
      read seen rest
    | ['-', '-', 'v', 'e', 'r', 's', 'i', 'o', 'n'] => .error .version
    | ['-', '-', 'h', 'e', 'l', 'p'] => .error (.help none)
    | '-' :: '-' :: _ => .error .misuse
    | '-' :: c :: short => do
      let seen ← shortOptions none seen (c :: short)
      read seen rest
    | _ => readCommand arg rest

end EffectFusion.Command
