import EffectFusion.Command.Arguments
import EffectFusion.Command.Files
import EffectFusion.Command.Help
import EffectFusion.Json.Config
import EffectFusion.Json.Report
import EffectFusion.Studio

/-!
# Running the command line

A run reads and writes files and ends with an exit code and two texts.  A failure is a list of
causes, the outermost first; `Failure.text` lays it out.  What was written to the standard output
before a failure stays.
-/

namespace EffectFusion.Command

structure Outcome where
  exit : Nat
  stdout : String
  stderr : String
  deriving DecidableEq, Repr

/-- causes, the outermost first -/
abbrev Causes := List String

/-! ### Failures -/

/-- `text` with `start` before its first line and `next` before each other one -/
def indented (start next text : String) : String :=
  start ++ String.intercalate ("\n" ++ next) (text.splitOn "\n")

/-- a cause with its number, which takes five places -/
def numberedCause (n : Nat) (text : String) : String :=
  let number := toString n
  indented ("".pushn ' ' (5 - number.length) ++ number ++ ": ") "       " text

def causesText : List String → String
  | [] => ""
  | [c] => "\n\nCaused by:\n" ++ indented "    " "    " c
  | cs => "\n\nCaused by:\n"
    ++ String.intercalate "\n" (cs.zipIdx.map (fun c => numberedCause c.2 c.1))

def failureText : Causes → String
  | [] => "Error: \n"
  | top :: below => "Error: " ++ top ++ causesText below ++ "\n"

/-- the causes of a failed fusion -/
def causesOf (e : FusionError) : Causes :=
  match e with
  | .file text cause => [text, cause]
  | e => [e.message]

/-! ### The state of a run -/

structure Printed where
  stdout : String
  stderr : String

abbrev RunM (m : Type → Type) := ExceptT Causes (StateT Printed m)

section

variable {m : Type → Type} [Monad m]

def printOut (s : String) : RunM m Unit := modify (fun p => { p with stdout := p.stdout ++ s })

def printErr (s : String) : RunM m Unit := modify (fun p => { p with stderr := p.stderr ++ s })

/-- an operation on files; `context` says what for -/
def onFiles {α : Type} (context : String) (op : m (Except FileFault α)) : RunM m α := do
  match ← (liftM op : RunM m (Except FileFault α)) with
  | .ok v => pure v
  | .error e => throw [context, e.message]

def onFusion {α : Type} : Except FusionError α → RunM m α
  | .ok v => pure v
  | .error e => throw (causesOf e)

/-! ### Configurations -/

def configAt (files : Files m) (path : String) : m (Except FusionError (Config Float)) := do
  match ← readText files path with
  | .error e => pure (.error (.file ("read fusion config '" ++ path ++ "'") e.message))
  | .ok text => pure (Config.ofText text)

/-- the studio of a configuration file, or the one in use without any -/
def loadStudio (files : Files m) (config : Option String) : RunM m Studio := do
  match config with
  | none => pure Studio.builtin
  | some path =>
    match ← (liftM (configAt files path) : RunM m (Except FusionError (Config Float))) with
    | .ok c => onFusion (Studio.ofConfig c)
    | .error e => throw (("load config '" ++ path ++ "'") :: causesOf e)

/-! ### Commands -/

/-- writes a file and makes the folders that it needs -/
def writeFile (files : Files m) (path text : String) : RunM m Unit := do
  match parent? path with
  | some folder =>
    if !folder.isEmpty then
      onFiles ("create output dir '" ++ folder ++ "'") (ensureFolder files folder)
  | none => pure ()
  onFiles ("write '" ++ path ++ "'") (files.write path text)

/-- writes a file and says so -/
def writeNoted (files : Files m) (path text : String) : RunM m Unit := do
  writeFile files path text
  printErr ("wrote " ++ path ++ "\n")

def runFuse (files : Files m) (a : FuseArguments) : RunM m Unit := do
  let studio ← loadStudio files a.config
  let source ← onFiles ("read effect source '" ++ a.source ++ "'") (readText files a.source)
  let artifact ← onFusion (studio.fuse History.empty source.toList a.level a.options).1
  let code := String.ofList artifact.code
  match a.out with
  | some path => writeNoted files path code
  | none => printOut (code ++ "\n")
  match a.report with
  | some path => writeNoted files path (toJson artifact.report).renderPretty
  | none => pure ()
  if a.textReport then
    printErr artifact.report.text
    printErr (artifact.summary.headline ++ "\n")
  printErr ("fusion id: " ++ artifact.id ++ "\n")

/-- at least `width` characters, spaces at the end -/
def padded (width : Nat) (s : String) : String := s.pushn ' ' (width - s.length)

def moduleLine (e : Enhancement Float) : String :=
  padded 24 e.id ++ " level=" ++ toString e.level.toNat ++ " "
    ++ padded 13 (Tag.name e.specialization)
    ++ " creative=" ++ Number.fixed 2 e.creative ++ " technical=" ++ Number.fixed 2 e.technical
    ++ (if e.universal then " universal" else "") ++ "\n"

def runModules (files : Files m) (level : UInt8) (config : Option String) : RunM m Unit := do
  let studio ← loadStudio files config
  let selected ← onFusion (studio.select level)
  printOut (String.join (selected.map moduleLine))

def policyLine (p : LevelPolicy Float) : String :=
  "level " ++ toString p.level.toNat ++ ": " ++ Tag.name p.strategy
    ++ " intensity=" ++ Number.fixed 2 p.intensity
    ++ " creativity=" ++ Number.fixed 2 p.creativity
    ++ " technical=" ++ Number.fixed 2 p.technical ++ "\n"

def runLevels (files : Files m) (config : Option String) : RunM m Unit := do
  let studio ← loadStudio files config
  printOut (String.join (studio.policies.policies.map policyLine))

def runRequest (files : Files m) : Request → RunM m Unit
  | .fuse a => runFuse files a
  | .modules level config => runModules files level config
  | .levels config => runLevels files config

def run (files : Files m) (arguments : List String) : m Outcome := do
  match read [] arguments with
  | .error .misuse => pure ⟨2, "", ""⟩
  | .error .version => pure ⟨0, versionText, ""⟩
  | .error (.help topic) => pure ⟨0, helpText topic, ""⟩
  | .ok request =>
    match ← ((runRequest files request).run.run ⟨"", ""⟩) with
    | (.ok (), printed) => pure ⟨0, printed.stdout, printed.stderr⟩
    | (.error causes, printed) => pure ⟨1, printed.stdout, printed.stderr ++ failureText causes⟩

end

end EffectFusion.Command
