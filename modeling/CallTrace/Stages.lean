import CallTrace.Stages.Assemblers
import CallTrace.Stages.Sinks
import CallTrace.Stages.TimestampFilter
import CallTrace.Stages.TraceReconstruction

/-!
# The standard stages
-/

namespace CallTrace

open Pipeline

/-- The stages of an analysis. -/
inductive StandardStage where
  | filter (stage : TimestampFilter)
  | reconstruction (stage : TraceReconstruction)
  | types (stage : TypeAssembler)
  | execution (stage : ExecutionAssembler)
  | queueSink (stage : QueueSink)
  | collector (stage : Collector)

namespace StandardStage

/-- The name of a stage. -/
def name : StandardStage → String
  | filter _ => TimestampFilter.name
  | reconstruction _ => TraceReconstruction.name
  | types _ => TypeAssembler.name
  | execution _ => ExecutionAssembler.name
  | queueSink _ => QueueSink.name
  | collector _ => Collector.name

/-- The ports of a stage. -/
def ports : StandardStage → List Port
  | filter _ => TimestampFilter.ports
  | reconstruction _ => TraceReconstruction.ports
  | types _ => TypeAssembler.ports
  | execution _ => ExecutionAssembler.ports
  | queueSink _ => QueueSink.ports
  | collector stage => stage.ports

/-- A callback's result for the stage as one of the standard stages. -/
def lift {σ : Type} (wrap : σ → StandardStage) (callback : Callback World (Ending × σ)) :
    Callback World (Ending × StandardStage) := do
  let (ending, stage) ← callback
  return (ending, wrap stage)

/-- Handles an event. -/
def onEvent (port : String) (event : Event) :
    StandardStage → Callback World (Ending × StandardStage)
  | filter stage => lift .filter (stage.onEvent port event)
  | reconstruction stage => lift .reconstruction (stage.onEvent port event)
  | types stage => lift .types (stage.onEvent port event)
  | execution stage => lift .execution (stage.onEvent port event)
  | queueSink stage => lift .queueSink (stage.onEvent event)
  | collector stage => lift .collector (stage.onEvent event)

/-- Hears that the pipeline terminates. -/
def onTerminate : StandardStage → Callback World (Ending × StandardStage)
  | reconstruction stage => lift .reconstruction stage.onTerminate
  | queueSink stage => lift .queueSink stage.onTerminate
  | collector stage => lift .collector stage.onTerminate
  | stage => return (.returned, stage)

/-- Changes a setting. Only the filter and the reconstruction have any. -/
def configure (key : String) (value : Setting) : StandardStage → Except StageFault StandardStage
  | filter stage => (stage.configure key value).map .filter
  | reconstruction stage => (stage.configure key value).map .reconstruction
  | _ => .error (.invalidSetting key "stage has no settings")

/-- Changes a setting; a stage that refuses stays as it is. -/
def onSetting (key : String) (value : Setting) (stage : StandardStage) : Ending × StandardStage :=
  match stage.configure key value with
  | .ok stage => (.returned, stage)
  | .error fault => (.failed fault, stage)

end StandardStage

instance : Stage World StandardStage where
  name := StandardStage.name
  ports := StandardStage.ports
  onEvent _ := StandardStage.onEvent
  onTerminate _ := StandardStage.onTerminate
  onSetting key value stage world := (stage.onSetting key value, world)

end CallTrace
