import CallTrace.FileSystem

/-!
# Sets of files

A file system that is held as a value: files and directories by their places, counted from the root,
and the directory that relative paths start from.
-/

namespace CallTrace

/-- What is at a place. -/
inductive FileNode where
  | file (content : Bytes)
  | directory
  deriving DecidableEq, Repr

/-- A set of files. -/
structure Files where
  nodes : List (List String × FileNode) := []
  /-- The directory that relative paths start from. -/
  workingDirectory : List String := []
  deriving DecidableEq, Repr

namespace Files

/-- What is at a place; the root is always there. -/
def node? (files : Files) (place : List String) : Option FileNode :=
  if place.isEmpty then some .directory else files.nodes.lookup place

/-- Puts something at a place. -/
def put (files : Files) (place : List String) (node : FileNode) : Files :=
  { files with nodes := (place, node) :: files.nodes.filter (·.1 ≠ place) }

/-- The steps of a path. A slash at its end asks for a directory. -/
def steps (path : String) : List String :=
  (path.splitOn "/").filter (· ≠ "") ++ if path.endsWith "/" then ["."] else []

/-- The most bytes that the name of a file can have. -/
def nameLimit : Nat := 255

/-- The most bytes that a path can have. -/
def pathLimit : Nat := 4095

/-- Walks from a place. Every step starts from a directory that is there. -/
def walk (files : Files) : List String → List String → Except FileFault (List String)
  | place, [] => .ok place
  | place, step :: steps =>
    match files.node? place with
    | some .directory =>
      if step = "." then walk files place steps
      else if step = ".." then walk files place.dropLast steps
      else if nameLimit < step.utf8ByteSize then .error .nameTooLong
      else walk files (place ++ [step]) steps
    | some (.file _) => .error .notDirectory
    | none => .error .notFound

/-- The place that a path leads to. The last step need not be there. -/
def place (files : Files) (path : String) : Except FileFault (List String) :=
  if path.contains '\x00' then .error .nulInPath
  else if pathLimit < path.utf8ByteSize then .error .nameTooLong
  else if path.isEmpty then .error .notFound
  else files.walk (if Path.isAbsolute path then [] else files.workingDirectory) (steps path)

/-- What a path leads to. -/
def look? (files : Files) (path : String) : Option FileNode :=
  match files.place path with
  | .ok place => files.node? place
  | .error _ => none

/-- The content of a file. -/
def read (files : Files) (path : String) : Except FileFault Bytes := do
  match files.node? (← files.place path) with
  | some (.file content) => return content
  | some .directory => throw .isDirectory
  | none => throw .notFound

/-- Gives a file the content that `f` makes of the one it has. -/
def update (files : Files) (path : String) (f : Option Bytes → Bytes) : Except FileFault Files := do
  let place ← files.place path
  match files.node? place with
  | some (.file content) => return files.put place (.file (f content))
  | some .directory => throw .isDirectory
  | none => return files.put place (.file (f none))

/-- Makes a directory. -/
def makeDirectory (files : Files) (path : String) : Except FileFault Files := do
  let place ← files.place path
  if (files.node? place).isSome then throw .alreadyThere
  return files.put place .directory

/-- Takes a step that may be refused, which changes nothing. -/
def attempt (f : Files → Except FileFault Files) : StateM Files (Except FileFault Unit) :=
  fun files =>
    match f files with
    | .ok files => (.ok (), files)
    | .error fault => (.error fault, files)

end Files

instance : FileSystem (StateM Files) where
  readFile path files := (files.read path, files)
  writeFile path content := Files.attempt (·.update path fun _ => content)
  touchFile path := Files.attempt (·.update path (·.getD []))
  createDirectory path := Files.attempt (·.makeDirectory path)
  isThere path files := ((files.look? path).isSome, files)
  isDirectory path files := (files.look? path == some .directory, files)

namespace Files

/-- Puts a file in its place, with the directories above it. -/
def putFile (files : Files) (path : String) (content : Bytes) : Files :=
  let prepare : StateM Files Unit := do
    let _ ← FileSystem.createDirectories ((Path.parent? path).getD "")
    let _ ← FileSystem.writeFile path content
  (prepare files).2

end Files

end CallTrace
