import EffectFusion.Command.Files

/-!
# A file system in memory

Files and folders by the names on the way from the top.  There are no links, and the folder above
the top is the top.
-/

namespace EffectFusion.Command

/-- files with their bytes, and folders besides the top -/
structure Disk where
  files : List (List String × ByteArray)
  folders : List (List String)

namespace Disk

def isFolderAt (d : Disk) (place : List String) : Bool := place = [] || d.folders.contains place

def fileAt? (d : Disk) (place : List String) : Option ByteArray :=
  (d.files.find? (fun f => f.1 = place)).map (·.2)

/-- one name further down from a place that must be a folder -/
def enter (d : Disk) (place : List String) (name : String) : Except FileFault (List String) :=
  if !d.isFolderAt place then
    .error (if (d.fileAt? place).isSome then notFolder else missing)
  else if name = "" ∨ name = "." then .ok place
  else if name = ".." then .ok place.dropLast
  else .ok (place ++ [name])

/-- the place of a path; there may be nothing yet -/
def locate (d : Disk) (path : String) : Except FileFault (List String) :=
  (path.splitOn "/").foldlM d.enter []

def endsInSlash (path : String) : Bool := path.toList.getLast? = some '/'

def withoutSlashes (path : String) : String :=
  String.ofList ((path.toList.reverse.dropWhile (· = '/')).reverse)

def read (d : Disk) (path : String) : Except FileFault ByteArray := do
  let place ← d.locate path
  if d.isFolderAt place then .error folder
  else match d.fileAt? place with
    | some bytes => .ok bytes
    | none => .error missing

def write (d : Disk) (path : String) (text : String) : Except FileFault Disk := do
  let place ← d.locate (withoutSlashes path)
  if endsInSlash path || d.isFolderAt place then .error folder
  else .ok { d with files := (place, text.toUTF8) :: d.files.filter (fun f => f.1 ≠ place) }

def makeFolder (d : Disk) (path : String) : Except FileFault Disk := do
  let place ← d.locate (withoutSlashes path)
  if d.isFolderAt place || (d.fileAt? place).isSome then .error taken
  else .ok { d with folders := place :: d.folders }

def isFolder (d : Disk) (path : String) : Bool :=
  match d.locate path with
  | .ok place => d.isFolderAt place
  | .error _ => false

/-- a disk with the given files and the folders that they need -/
def ofFiles (files : List (String × ByteArray)) : Disk :=
  let placed := files.map (fun f => (f.1.splitOn "/", f.2))
  ⟨placed, placed.flatMap (fun f => (List.range' 1 (f.1.length - 1)).map f.1.take)⟩

/-- the change that an operation makes, if it succeeds -/
def changing (f : Disk → Except FileFault Disk) : StateM Disk (Except FileFault Unit) := do
  match f (← get) with
  | .ok d => do
    set d
    pure (.ok ())
  | .error e => pure (.error e)

/-- the disk that is the state of a computation -/
def asFiles : Files (StateM Disk) where
  read path := do pure ((← get).read path)
  write path text := changing (fun d => d.write path text)
  makeFolder path := changing (fun d => d.makeFolder path)
  isFolder path := do pure ((← get).isFolder path)

end Disk

end EffectFusion.Command
