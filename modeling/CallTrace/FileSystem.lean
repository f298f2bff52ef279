import CallTrace.Bytes
import CallTrace.Path

/-!
# File systems

What a program asks of a file system, whichever one it is: the files of the computer, or a set of
files that is held as a value.
-/

namespace CallTrace

/-- Why a file system refused. -/
inductive FileFault where
  | notFound
  | alreadyThere
  | notDirectory
  | isDirectory
  | nameTooLong
  | nulInPath
  | other (message : String)
  deriving DecidableEq, Repr

namespace FileFault

/-- The wording of a refusal. -/
def message : FileFault → String
  | notFound => "No such file or directory (os error 2)"
  | alreadyThere => "File exists (os error 17)"
  | notDirectory => "Not a directory (os error 20)"
  | isDirectory => "Is a directory (os error 21)"
  | nameTooLong => "File name too long (os error 36)"
  | nulInPath => "file name contained an unexpected NUL byte"
  | other text => text

end FileFault

/-- A file system that is used in the course of a computation. -/
class FileSystem (m : Type → Type) where
  /-- The content of a file. -/
  readFile : String → m (Except FileFault Bytes)
  /-- Gives a file a content; the file need not be there before. -/
  writeFile : String → Bytes → m (Except FileFault Unit)
  /-- Makes sure that a file is there, and leaves its content alone. -/
  touchFile : String → m (Except FileFault Unit)
  /-- Makes a directory in one that is there. -/
  createDirectory : String → m (Except FileFault Unit)
  /-- Whether a path leads to something. -/
  isThere : String → m Bool
  /-- Whether a path leads to a directory. -/
  isDirectory : String → m Bool

namespace FileSystem

variable {m : Type → Type} [Monad m] [FileSystem m]

/-- Makes a directory unless it is there. -/
def ensureDirectory (path : String) : m (Except FileFault Unit) := do
  match ← createDirectory path with
  | .error .alreadyThere =>
    return if ← isDirectory path then .ok () else .error .alreadyThere
  | result => return result

/-- Makes a directory and those above it, of which at most so many are missing. -/
def createAbove : Nat → String → m (Except FileFault Unit)
  | 0, path => ensureDirectory path
  | missing + 1, path => do
    match ← ensureDirectory path with
    | .error .notFound =>
      match Path.parent? path with
      | none => return .error .notFound
      | some "" => ensureDirectory path
      | some parent =>
        match ← createAbove missing parent with
        | .error fault => return .error fault
        | .ok () => ensureDirectory path
    | result => return result

/-- Makes a directory and those above it, as far as they are missing. -/
def createDirectories (path : String) : m (Except FileFault Unit) :=
  if path.isEmpty then return .ok () else createAbove (Path.parts path).length path

end FileSystem

end CallTrace
