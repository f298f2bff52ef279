import CallTrace.Extractor
import CallTrace.Pipeline.Callback
import CallTrace.World

/-!
# Assemblers

The stages that fill the models: one adds the operations it hears of, the other one calls and
dataflows.
-/

namespace CallTrace

open Pipeline

/-! ## Types -/

/-- A stage that adds every operation to the type model and passes the event on. -/
structure TypeAssembler where
  extractor : Extractor
  /-- The label under which the models remember the source. -/
  label : String

namespace TypeAssembler

/-- The name of the stage. -/
def name : String := "TypeModelAssembler"

/-- The port that takes events. -/
def input : String := "events"

/-- The port at which events are passed on. -/
def forward : String := "forward"

/-- The types of the events that are of use. -/
def types : List EventType := [.monitoringRecord, .executionTrace, .operationCall]

/-- The ports of the stage. -/
def ports : List Port := [.input input types, .output forward types]

/-- Where the operations that an event tells of were executed. A branching decision tells of none;
a dataflow is of no use. -/
def sites? : Event → Option (List Site)
  | .record record => some (record.execution?.map Execution.site).toList
  | .trace trace => some (trace.executions.map Execution.site)
  | .call call => some [call.caller, call.callee]
  | .dataflow _ => none

/-- Adds the operations of sites to the models. -/
def addAll (stage : TypeAssembler) (sites : List Site) (now : Instant) (models : Model.Models) :
    Model.Models :=
  sites.foldl (fun models site =>
    (models.addOperation now stage.label (stage.extractor.resolve site)).2) models

/-- Handles an event. -/
def onEvent (port : String) (event : Event) (stage : TypeAssembler) :
    Callback World (Ending × TypeAssembler) := do
  match sites? event with
  | none => return (.failed (.unexpected port event), stage)
  | some sites =>
    Callback.change (World.modifyModels (stage.addAll sites))
    let _ ← Callback.send forward event
    return (.returned, stage)

end TypeAssembler

/-! ## Calls and dataflows -/

/-- A stage that accounts for calls and dataflows in the execution model. -/
structure ExecutionAssembler where
  extractor : Extractor
  /-- The label under which the models remember the source. -/
  label : String

namespace ExecutionAssembler

/-- The name of the stage. -/
def name : String := "ExecutionModelAssembler"

/-- The port that takes calls. -/
def calls : String := "calls"

/-- The port that takes dataflows. -/
def dataflows : String := "dataflows"

/-- The ports of the stage. -/
def ports : List Port := [.input calls [.operationCall], .input dataflows [.dataflow]]

/-- Accounts for a call. -/
def addCall (stage : ExecutionAssembler) (call : Call) (now : Instant) (models : Model.Models) :
    Model.Models :=
  let caller := stage.extractor.resolve call.caller
  let callee := stage.extractor.resolve call.callee
  (models.addCall now stage.label caller callee (some call.duration)).2

/-- Accounts for a dataflow. -/
def addDataflow (stage : ExecutionAssembler) (flow : Dataflow) (now : Instant)
    (models : Model.Models) : Model.Models :=
  let source := stage.extractor.resolve flow.source
  match flow.target with
  | .operation target =>
    (models.addOperationDataflow now stage.label source (stage.extractor.resolve target)
      flow.direction).2
  | .storage name =>
    (models.addStorageDataflow now stage.label source { name } flow.direction).2

/-- Handles an event; a call and a dataflow each have a port of their own. -/
def onEvent (port : String) (event : Event) (stage : ExecutionAssembler) :
    Callback World (Ending × ExecutionAssembler) := do
  match event with
  | .call call =>
    if port = calls then
      Callback.change (World.modifyModels (stage.addCall call))
      return (.returned, stage)
    else return (.failed (.unexpected port event), stage)
  | .dataflow flow =>
    if port = dataflows then
      Callback.change (World.modifyModels (stage.addDataflow flow))
      return (.returned, stage)
    else return (.failed (.unexpected port event), stage)
  | _ => return (.failed (.unexpected port event), stage)

end ExecutionAssembler

end CallTrace
