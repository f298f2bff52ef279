/-!
# Paths

The parts of a path are separated by slashes. Repeated slashes, slashes at the end and parts that
only say "here" make no difference, except at the start of a relative path.
-/

namespace CallTrace.Path

/-- Whether a path starts at the root of the file system. -/
def isAbsolute (path : String) : Bool := path.startsWith "/"

/-- The parts of a path. -/
def parts (path : String) : List String :=
  let isPart (part : String) : Bool := part != "" && part != "."
  match path.splitOn "/" with
  | "." :: rest => "." :: rest.filter isPart
  | all => all.filter isPart

/-- The path without its last part, if it has one. -/
def parent? (path : String) : Option String :=
  let parts := parts path
  if parts.isEmpty then none
  else some ((if isAbsolute path then "/" else "") ++ "/".intercalate parts.dropLast)

/-- The last part of a path, if it names something. -/
def fileName? (path : String) : Option String := do
  let name ← (parts path).getLast?
  if name = "." ∨ name = ".." then none else return name

/-- What follows the last dot of the file name; a dot in front of the name does not count. -/
def extension? (path : String) : Option String := do
  match ((← fileName? path).splitOn ".").reverse with
  | last :: rest => if rest = [] ∨ rest = [""] then none else return last
  | [] => none

/-- A path below another one, unless it starts at the root itself. -/
def join (base path : String) : String :=
  if isAbsolute path then path
  else if base.isEmpty || base.endsWith "/" then base ++ path
  else base ++ "/" ++ path

end CallTrace.Path
