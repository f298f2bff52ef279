import CallTrace.Pipeline.Port

/-!
# Refusals of a pipeline

Why an operation on a pipeline was refused or failed.
-/

namespace CallTrace.Pipeline

/-- The number of a stage or reader, counted in the order of addition. A pipeline is assumed to have
fewer than `2 ^ 32` of them, so that its number fits into 32 bits and is not the invalid one. -/
structure StageId where
  index : Nat
  deriving DecidableEq, Repr, Inhabited

/-- The number of a connection, counted in the order of connecting, of which there are assumed to be
fewer than `2 ^ 32`. -/
structure ConnectionId where
  index : Nat
  deriving DecidableEq, Repr, Inhabited

/-- The number that stands for no stage and no connection. -/
def invalidIndex : Nat := 4294967295

namespace StageId

/-- The id of no stage. -/
def invalid : StageId := ⟨invalidIndex⟩

/-- Whether the id can belong to a stage. -/
def isValid (id : StageId) : Bool := id.index != invalidIndex

/-- The form in which messages show the id. -/
def shown (id : StageId) : String :=
  if id.isValid then s!"StageId({id.index})" else "StageId(INVALID)"

end StageId

namespace ConnectionId

/-- Whether the id can belong to a connection. -/
def isValid (id : ConnectionId) : Bool := id.index != invalidIndex

/-- The form in which messages show the id. -/
def shown (id : ConnectionId) : String :=
  if id.isValid then s!"ConnectionId({id.index})" else "ConnectionId(INVALID)"

end ConnectionId

/-- Why a pipeline refused. -/
inductive Refusal where
  | unknownStage (stage : StageId)
  | unknownPort (stage : StageId) (port : String) (direction : PortDirection)
  | readerAsTarget (stage : StageId)
  | cycle
  | portMismatch (output input : List EventType)
  | setting (stage : StageId) (message : String)
  | alreadyStarted
  | readerFailed (stage : StageId) (message : String)
  | readerPanicked (stage : StageId)
  | io (message : String)
  deriving DecidableEq, Repr

namespace Refusal

/-- The name of the kind of a refusal. -/
def kind : Refusal → String
  | unknownStage _ => "UnknownStage"
  | unknownPort .. => "UnknownPort"
  | readerAsTarget _ => "ReaderAsTarget"
  | cycle => "CycleDetected"
  | portMismatch .. => "PortMismatch"
  | setting .. => "Config"
  | alreadyStarted => "AlreadyStarted"
  | readerFailed .. => "ReaderFailed"
  | readerPanicked _ => "ReaderPanicked"
  | io _ => "Io"

/-- The wording of a refusal. -/
def message : Refusal → String
  | unknownStage stage => "Unknown stage " ++ stage.shown
  | unknownPort stage port direction =>
    s!"Stage {stage.shown} has no {direction.name} port '{port}'"
  | readerAsTarget stage => s!"Stage {stage.shown} is a reader and cannot receive connections"
  | cycle => "Cycle detected in pipeline graph"
  | portMismatch output input =>
    "Port mismatch: output accepts " ++ EventType.listText output ++ ", input accepts "
      ++ EventType.listText input
  | setting stage text => s!"Stage {stage.shown} rejected configuration: {text}"
  | alreadyStarted => "Pipeline already started"
  | readerFailed stage text => s!"Reader {stage.shown} failed: {text}"
  | readerPanicked stage => s!"Reader thread for {stage.shown} panicked"
  | io text => "IO error: " ++ text

end Refusal

end CallTrace.Pipeline
