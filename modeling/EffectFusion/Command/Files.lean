/-!
# Files as the command line sees them

What a run needs of a file system, for any kind of effect: the same run works on a real file
system and on one in memory.  `ensureFolder` makes a folder with all folders above it.
-/

namespace EffectFusion.Command

/-- why a file could not be used -/
inductive FileFault
  /-- the bytes are not UTF-8 -/
  | notText
  /-- the number of an error of the system -/
  | system (code : Nat)
  deriving DecidableEq, Repr

/-- nothing has that name -/
def missing : FileFault := .system 2

/-- something has that name already -/
def taken : FileFault := .system 17

def notFolder : FileFault := .system 20

def folder : FileFault := .system 21

def systemTexts : List (Nat × String) := [
  (1, "Operation not permitted"),
  (2, "No such file or directory"),
  (5, "Input/output error"),
  (13, "Permission denied"),
  (17, "File exists"),
  (20, "Not a directory"),
  (21, "Is a directory"),
  (22, "Invalid argument"),
  (26, "Text file busy"),
  (27, "File too large"),
  (28, "No space left on device"),
  (30, "Read-only file system"),
  (36, "File name too long"),
  (40, "Too many levels of symbolic links")]

def FileFault.message : FileFault → String
  | .notText => "stream did not contain valid UTF-8"
  | .system code =>
    let text := ((systemTexts.find? (fun t => t.1 = code)).map (·.2)).getD
      ("Unknown error " ++ toString code)
    text ++ " (os error " ++ toString code ++ ")"

/-- a file system with effects of the kind `m` -/
structure Files (m : Type → Type) where
  read : String → m (Except FileFault ByteArray)
  write : String → String → m (Except FileFault Unit)
  makeFolder : String → m (Except FileFault Unit)
  isFolder : String → m Bool

/-! ### Paths -/

/-- a path without the separators and single points at its end; last character first -/
def trimmedBack : List Char → List Char
  | ['/'] => ['/']
  | '/' :: rest => trimmedBack rest
  | ['.', '/'] => ['/']
  | '.' :: '/' :: rest => trimmedBack rest
  | path => path

/-- the path of the folder that holds a path, empty for a bare name -/
def parent? (path : String) : Option String :=
  match trimmedBack path.toList.reverse with
  | [] => none
  | ['/'] => none
  | back => some (String.ofList (trimmedBack (back.dropWhile (· ≠ '/'))).reverse)

/-- a path and the folders above it that have a name, the nearest first -/
def ancestors : Nat → String → List String
  | 0, _ => []
  | fuel + 1, path =>
    if path.isEmpty then []
    else match parent? path with
      | some p => path :: ancestors fuel p
      | none => [path]

variable {m : Type → Type} [Monad m]

/-- makes the first folder of a list; if what holds it is missing, makes the others before -/
def ensureAll (files : Files m) : List String → m (Except FileFault Unit)
  | [] => pure (.ok ())
  | path :: above => do
    let settle := fun (e : FileFault) => do
      if ← files.isFolder path then pure (.ok ()) else pure (.error e)
    match ← files.makeFolder path with
    | .ok () => pure (.ok ())
    | .error e =>
      if e = missing then
        match ← ensureAll files above with
        | .error e => pure (.error e)
        | .ok () =>
          match ← files.makeFolder path with
          | .ok () => pure (.ok ())
          | .error e => settle e
      else settle e

/-- makes a folder and all folders above it; a folder that is there already is fine -/
def ensureFolder (files : Files m) (path : String) : m (Except FileFault Unit) :=
  ensureAll files (ancestors (path.length + 1) path)

def readText (files : Files m) (path : String) : m (Except FileFault String) := do
  match ← files.read path with
  | .error e => pure (.error e)
  | .ok bytes =>
    match String.fromUTF8? bytes with
    | some text => pure (.ok text)
    | none => pure (.error .notText)

end EffectFusion.Command
