import CallTrace.Cli
import Std.Time.DateTime.Timestamp

/-!
# The program

Runs the command line on the files of the computer, with the environment and the clock it has.
-/

namespace CallTrace

/-- Why an operation on the files of the computer failed. Numbers of errors come with either
sign. -/
def FileFault.ofError : IO.Error → FileFault
  | .noFileOrDirectory .. => .notFound
  | .alreadyExists .. => .alreadyThere
  | .inappropriateType _ code text =>
    if code = 20 ∨ code = -20 then .notDirectory
    else if code = 21 ∨ code = -21 then .isDirectory
    else .other text
  | .invalidArgument path code text =>
    if code = 36 ∨ code = -36 then .nameTooLong
    else if (path.getD "").contains '\x00' then .nulInPath
    else .other text
  | error => .other error.toString

/-- Takes an action that may fail. -/
def attempt {α : Type} (action : IO α) : IO (Except FileFault α) := do
  try
    return .ok (← action)
  catch error => return .error (.ofError error)

instance : FileSystem IO where
  readFile path := attempt do
    let place := (← IO.currentDir) / path
    if ← place.isDir then throw (.inappropriateType none 21 "")
    return (← IO.FS.readBinFile place).data.toList
  writeFile path content := attempt (IO.FS.writeBinFile path ⟨content.toArray⟩)
  touchFile path := attempt do
    let _ ← IO.FS.Handle.mk path .append
  createDirectory path := attempt (IO.FS.createDir path)
  isThere path := do ((← IO.currentDir) / path).pathExists
  isDirectory path := do ((← IO.currentDir) / path).isDir

/-- The environment of the running program. -/
def environment : IO Config.Environment := do
  return {
    configFile := ← IO.getEnv "TRACESCOPE_CONFIG"
    dataHome := ← IO.getEnv "XDG_DATA_HOME"
    home := ← IO.getEnv "HOME"
    logFilter := ← IO.getEnv "RUST_LOG" }

/-- The present point in time. -/
def now : IO Instant := do
  let nanos := (← Std.Time.Timestamp.now).toNanosecondsSinceUnixEpoch.toInt
  return .ofEpoch (nanos / 1000000000) (nanos % 1000000000).toNat

end CallTrace

/-- Runs the program and prints what it leaves. -/
def main (arguments : List String) : IO UInt32 := do
  let outcome ← CallTrace.Cli.run arguments (← CallTrace.environment) (← CallTrace.now)
  IO.print outcome.stdout
  IO.eprint outcome.stderr
  return outcome.code
