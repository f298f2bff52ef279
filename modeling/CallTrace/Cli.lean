import CallTrace.Analysis
import CallTrace.Config.LogFilter
import CallTrace.Config.Store
import CallTrace.Model.Architecture
import CallTrace.Snapshot.Data

/-!
# The command line

```
tracescope <records.bin> [--config <file>] [--graph]
```

Replays a binary log and prints the models that it gives: a snapshot of them as JSON, or their
architecture as an indented tree.
-/

namespace CallTrace.Cli

/-- What a run of the program leaves. -/
structure Outcome where
  code : UInt32 := 0
  stdout : String := ""
  stderr : String := ""
  deriving DecidableEq, Repr

/-- Why a run failed: what was being done, and a cause if one is known. -/
structure Failure where
  message : String
  cause : Option String := none
  deriving DecidableEq, Repr

namespace Failure

/-- The failure that an error is. -/
def ofError (error : Error) : Failure := { message := error.message }

/-- The failure that the refusal of a file system is. -/
def ofFileFault (fault : FileFault) : Failure :=
  { message := (Error.io fault.message).message, cause := some fault.message }

/-- The failure that a script is which is not well formed. -/
def ofMalformedScript (malformed : Extractor.MalformedScript) : Failure :=
  .ofError (.script malformed.message)

/-- What the failure leaves. -/
def outcome (failure : Failure) : Outcome where
  code := 1
  stderr := "Error: " ++ failure.message ++ "\n"
    ++ failure.cause.elim "" fun cause => "\nCaused by:\n    " ++ cause ++ "\n"

end Failure

/-! ## Arguments -/

/-- What the arguments ask for. -/
structure Options where
  log : Option String := none
  config : Option String := none
  showsGraph : Bool := false
  deriving DecidableEq, Repr

/-- Takes in the arguments; of repeated ones, the last counts. -/
def Options.add (options : Options) : List String → Except Failure Options
  | [] => return options
  | "--config" :: path :: rest => { options with config := some path }.add rest
  | ["--config"] => throw { message := "--config needs a file argument" }
  | "--graph" :: rest => { options with showsGraph := true }.add rest
  | argument :: rest =>
    if argument.startsWith "--" then throw { message := "Unknown option " ++ argument }
    else { options with log := some argument }.add rest

/-- How the program is called. -/
def usage : String := "Usage: tracescope <records.bin> [--config <file>] [--graph]"

/-- The log to replay and the options of the replay. -/
def parse (arguments : List String) : Except Failure (String × Options) := do
  let options ← ({} : Options).add arguments
  match options.log with
  | some log => return (log, options)
  | none => throw { message := usage }

/-! ## Output -/

/-- The line of a visit in an indented tree, if it has one. -/
def treeLine? : Visit → Option String
  | .node id label _ depth => some (indent depth ++ label ++ " (" ++ id ++ ")\n")
  | .edge edge depth =>
    let count := (edge.properties.get? "count").getD "?"
    some (indent depth ++ edge.source ++ " --" ++ edge.label ++ "[" ++ count ++ "]--> "
      ++ edge.target ++ "\n")
  | .enter .. | .leave .. => none
where
  /-- The blanks in front of a line. -/
  indent (depth : Nat) : String := String.ofList (List.replicate (2 * depth) ' ')

/-- A graph as an indented tree. -/
def tree (graph : Graph) : String :=
  graph.label ++ "\n" ++ String.join ((graph.visits 0).filterMap treeLine?)

/-- What is printed about models. -/
def report (models : Model.Models) (showsGraph : Bool) : String :=
  if showsGraph then
    tree (Model.architecture Model.architectureLabel models.types models.execution)
  else models.snapshot.toJson ++ "\n"

/-! ## Runs -/

variable {m : Type → Type} [Monad m] [FileSystem m]

/-- A step of a run. -/
abbrev Step (m : Type → Type) := ExceptT Failure m

/-- Sees to the log file, with the directories above it. -/
def prepareLogFile (path : String) : Step m Unit := do
  let some name := Path.fileName? path
    | throw (.ofError (.config ("Log file " ++ Text.quoted path ++ " has no file name")))
  let directory := ((Path.parent? path).filter (· ≠ "")).getD "."
  match ← (FileSystem.createDirectories directory : m _) with
  | .error fault => throw (.ofFileFault fault)
  | .ok () =>
    match ← (FileSystem.touchFile (Path.join directory name) : m _) with
    | .error fault => throw (.ofFileFault fault)
    | .ok () => return

/-- Sets up logging. A well-formed filter of the environment wins over the configured one. -/
def prepareLogging (settings : Config.Logging) (environment : Config.Environment) :
    Step m Unit := do
  let isSet := match environment.logFilter.map LogFilter.check with
    | some (.ok ()) => true
    | _ => false
  if !isSet then
    if let .error fault := LogFilter.check settings.filter then
      throw (.ofError (.config ("Invalid log filter: " ++ fault.message)))
  settings.file.forM prepareLogFile

/-- Opens a log. A directory can be opened, but not read. -/
def openLog (path : String) : Step m Log.Source := do
  match ← (FileSystem.readFile path : m _) with
  | .ok bytes => return .ofBytes bytes
  | .error .isDirectory =>
    return { rest := [], soundFor := some 0, failure := FileFault.isDirectory.message }
  | .error fault =>
    throw { message := "Failed to open " ++ Text.quoted path, cause := some fault.message }

/-- Replays the log that the arguments name, and gives what is printed. -/
def replay (arguments : List String) (environment : Config.Environment) (now : Instant) :
    Step m String := do
  let (log, options) ← parse arguments
  let (config, _) ← (Config.tryLoad options.config environment : m _)
  prepareLogging config.logging environment
  let extractor ← match Extractor.ofScripts config.scripts with
    | .ok extractor => pure extractor
    | .error malformed => throw (.ofMalformedScript malformed)
  let source ← openLog log
  let reader : StandardReader := .log (.ofSource source config.reading.skipsMalformed)
  match Analysis.run config extractor reader now with
  | .error refusal | .ok (.refused refusal, _) => throw { message := refusal.message }
  | .ok (.panicked, _) => throw { message := "The analysis panicked" }
  | .ok (.done, models) => return report models options.showsGraph

/-- Runs the program. -/
def run (arguments : List String) (environment : Config.Environment) (now : Instant) :
    m Outcome := do
  match ← (replay arguments environment now : Step m String).run with
  | .ok stdout => return { stdout }
  | .error failure => return failure.outcome

end CallTrace.Cli
