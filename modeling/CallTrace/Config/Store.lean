import CallTrace.Config.Data
import CallTrace.FileSystem
import CallTrace.Json.Parser
import CallTrace.Json.Printer
import CallTrace.Text.Quoted
import CallTrace.Toml.Parser
import CallTrace.Toml.Printer

/-!
# Configuration files

A configuration is kept as JSON in files whose name says so, and as TOML in all others. Which file
is read depends on what the caller, the environment and the user's data directory say, in this
order.
-/

namespace CallTrace.Config

/-- What the environment of a program says about files and logging. -/
structure Environment where
  /-- A configuration file. -/
  configFile : Option String := none
  /-- The directory of the user's data. -/
  dataHome : Option String := none
  /-- The home directory of the user. -/
  home : Option String := none
  /-- What is logged, whatever the configuration says. -/
  logFilter : Option String := none
  deriving DecidableEq, Repr

namespace Environment

/-- The directory of the user's data; only an absolute one counts. -/
def dataDirectory? (environment : Environment) : Option String :=
  match environment.dataHome.filter Path.isAbsolute with
  | some path => some path
  | none => (environment.home.filter (· ≠ "")).map fun home => Path.join home ".local/share"

end Environment

/-- Below the data directory, where the configuration is if nothing else is said. -/
def standardFile : String := "dev.tracescope.tracescope-rs/config.toml"

/-- The file that a configuration is read from. -/
def resolvePath? (explicit : Option String) (environment : Environment) : Option String :=
  explicit.or (environment.configFile.or
    (environment.dataDirectory?.map fun path => Path.join path standardFile))

/-- Whether a file holds JSON. -/
def isJson (path : String) : Bool :=
  (Path.extension? path).any fun name => String.ofList (name.toList.map Char.toLower) == "json"

/-- What can go wrong with a configuration file. -/
inductive Fault where
  | read (path message : String)
  | parse (path : String)
  | create (fault : FileFault)
  | serialize
  | write (fault : FileFault)
  deriving DecidableEq, Repr

namespace Fault

/-- The name of the stage that failed. -/
def stage : Fault → String
  | read .. => "read"
  | parse _ => "parse"
  | create _ => "create"
  | serialize => "serialize"
  | write _ => "write"

/-- The wording of a fault. -/
def message : Fault → String
  | read path text => "Failed to read config " ++ Text.quoted path ++ ": " ++ text
  | parse path => "Failed to parse config " ++ Text.quoted path
  | create fault => "Failed to create config directory: " ++ fault.message
  | serialize => "Failed to serialize config"
  | write fault => "Failed to write config: " ++ fault.message

end Fault

/-- Reads the text of a configuration file. -/
def parse? (json : Bool) (text : String) : Option Config :=
  if json then (Json.parse? text).bind (ofData? false) else (Toml.parse? text).bind (ofData? true)

/-- The text of a configuration file. -/
def render? (json : Bool) (config : Config) : Option String :=
  if json then some (Json.render .indented config.toData) else Toml.render? config.toData

variable {m : Type → Type} [Monad m] [FileSystem m]

/-- Reads a configuration from a file. -/
def load (path : String) : m (Except Fault Config) := do
  match ← FileSystem.readFile path with
  | .error fault => return .error (.read path fault.message)
  | .ok bytes =>
    match Bytes.toText? bytes with
    | none => return .error (.read path "stream did not contain valid UTF-8")
    | some text =>
      match parse? (isJson path) text with
      | some config => return .ok config
      | none => return .error (.parse path)

/-- Reads the configuration from the file it is in. Where there is none, or none that can be read,
the standard configuration is used; in the second case the fault is handed back as well. -/
def tryLoad (explicit : Option String) (environment : Environment) :
    m (Config × Option Fault) := do
  match resolvePath? explicit environment with
  | none => return (standard, none)
  | some path =>
    if ← FileSystem.isThere path then
      match ← load path with
      | .ok config => return (config, none)
      | .error fault => return (standard, some fault)
    else return (standard, none)

/-- Writes a configuration to a file, and makes the directories above it first. -/
def save (config : Config) (path : String) : m (Except Fault Unit) := do
  match ← FileSystem.createDirectories ((Path.parent? path).getD "") with
  | .error fault => return .error (.create fault)
  | .ok () =>
    match config.render? (isJson path) with
    | none => return .error .serialize
    | some text =>
      match ← FileSystem.writeFile path (Bytes.ofText text) with
      | .error fault => return .error (.write fault)
      | .ok () => return .ok ()

end CallTrace.Config
