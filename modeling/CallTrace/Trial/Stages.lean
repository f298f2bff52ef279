import CallTrace.Readers
import CallTrace.Stages

/-!
# Stages for trying pipelines out

Stages and readers that do what they are told and take notes, so that the course of events in a
pipeline can be read afterwards: a relay passes events on, fails or panics; a wrapped stage reports
how the stage inside it fared; a scripted reader gives out a list of events.
-/

namespace CallTrace.Trial

open Pipeline

/-- What was noted. -/
inductive Note where
  | started (name : String) (stage : StageId)
  | received (name input : String) (type : EventType)
  | emitted (name port : String) (accepted : Bool)
  | handled (name input : String) (ending : Ending)
  | terminated (name : String) (isTerminated : Bool)
  | configured (name key : String)
  deriving DecidableEq, Repr

/-- The world with the notes that its stages take, the latest one first. -/
structure Notebook where
  world : World
  notes : List Note := []

namespace Notebook

/-- Adds a note. -/
def add (note : Note) (book : Notebook) : Notebook := { book with notes := note :: book.notes }

/-- Emits events and notes the answers. -/
def emitAll (name : String) (events : List (String × Event)) : Callback Notebook Unit :=
  events.forM fun (port, event) => do
    let accepted ← Callback.send port event
    Callback.change (add (.emitted name port accepted))

/-- A callback of a stage that takes no notes. -/
def lift {α β : Type} (wrap : α → β) (callback : Callback World (Ending × α)) :
    Callback Notebook (Ending × β) := do
  let (ending, value) ← callback.within world fun world book => { book with world }
  return (ending, wrap value)

end Notebook

/-! ## Relays -/

/-- What a relay does with an event. -/
inductive Mode where
  | forward
  | fail
  | panic
  deriving DecidableEq, Repr

namespace Mode

/-- The mode with a name; unknown names mean forwarding. -/
def ofName : String → Mode
  | "fail" => fail
  | "panic" | "panic_any" => panic
  | _ => forward

end Mode

/-- A stage that does what it is told. -/
structure Relay where
  name : String
  ports : List Port
  /-- The ports at which events are passed on. -/
  forwards : List String
  mode : Mode
  panicsAtStart : Bool
  panicsAtEnd : Bool
  panicsOnSetting : Bool
  /-- What is emitted at the start. -/
  atStart : List (String × Event)
  /-- What is emitted at the end. -/
  atEnd : List (String × Event)

namespace Relay

/-- Notes the start and emits what is due then. -/
def onStart (s : Surroundings) (relay : Relay) : Callback Notebook (Ending × Relay) := do
  Callback.change (Notebook.add (.started relay.name s.stage))
  if relay.panicsAtStart then return (.panicked, relay)
  else
    Notebook.emitAll relay.name relay.atStart
    return (.returned, relay)

/-- Notes an event and does with it what the mode says. -/
def onEvent (input : String) (event : Event) (relay : Relay) :
    Callback Notebook (Ending × Relay) := do
  Callback.change (Notebook.add (.received relay.name input event.type))
  match relay.mode with
  | .panic => return (.panicked, relay)
  | .fail => return (.failed (.unexpected input event), relay)
  | .forward =>
    Notebook.emitAll relay.name (relay.forwards.map (·, event))
    return (.returned, relay)

/-- Notes the end and emits what is due then. -/
def onTerminate (s : Surroundings) (relay : Relay) : Callback Notebook (Ending × Relay) := do
  Callback.change (Notebook.add (.terminated relay.name s.isTerminated))
  if relay.panicsAtEnd then return (.panicked, relay)
  else
    Notebook.emitAll relay.name relay.atEnd
    return (.returned, relay)

/-- Notes a setting. The only one there is is the mode. -/
def onSetting (key : String) (value : Setting) (relay : Relay) (book : Notebook) :
    (Ending × Relay) × Notebook :=
  let book := book.add (.configured relay.name key)
  if relay.panicsOnSetting then ((.panicked, relay), book)
  else
    match key, value with
    | "mode", .text mode => ((.returned, { relay with mode := .ofName mode }), book)
    | _, _ => ((.failed (.other (.config ("no setting " ++ key))), relay), book)

end Relay

/-! ## Stages -/

/-- A stage to try a pipeline out with. -/
inductive TrialStage where
  | standard (stage : StandardStage)
  /-- A stage that does nothing. -/
  | plain (ports : List Port)
  /-- A stage whose inputs take everything and that notes how the one inside it fares. -/
  | wrapped (inner : StandardStage)
  | relay (relay : Relay)

namespace TrialStage

/-- The name of a stage. -/
def name : TrialStage → String
  | standard stage => stage.name
  | plain _ => "Plain"
  | wrapped _ => "Wrap"
  | relay r => r.name

/-- The ports of a stage. -/
def ports : TrialStage → List Port
  | standard stage => stage.ports
  | plain ports => ports
  | wrapped inner => inner.ports.map fun port =>
    if port.direction = .input then { port with types := [] } else port
  | relay r => r.ports

/-- Hears of the start. -/
def onStart (s : Surroundings) : TrialStage → Callback Notebook (Ending × TrialStage)
  | relay r => do
    let (ending, r) ← r.onStart s
    return (ending, relay r)
  | stage => return (.returned, stage)

/-- Handles an event. -/
def onEvent (input : String) (event : Event) :
    TrialStage → Callback Notebook (Ending × TrialStage)
  | standard stage => Notebook.lift standard (stage.onEvent input event)
  | plain ports => return (.returned, plain ports)
  | wrapped inner => do
    let (ending, stage) ← Notebook.lift wrapped (inner.onEvent input event)
    Callback.change (Notebook.add (.handled inner.name input ending))
    return (ending, stage)
  | relay r => do
    let (ending, r) ← r.onEvent input event
    return (ending, relay r)

/-- Hears of the end. -/
def onTerminate (s : Surroundings) : TrialStage → Callback Notebook (Ending × TrialStage)
  | standard stage => Notebook.lift standard stage.onTerminate
  | plain ports => return (.returned, plain ports)
  | wrapped inner => Notebook.lift wrapped inner.onTerminate
  | relay r => do
    let (ending, r) ← r.onTerminate s
    return (ending, relay r)

/-- Changes a setting. -/
def onSetting (key : String) (value : Setting) (stage : TrialStage) (book : Notebook) :
    (Ending × TrialStage) × Notebook :=
  match stage with
  | standard stage => ((stage.onSetting key value).map id standard, book)
  | plain ports => ((.returned, plain ports), book)
  | wrapped inner => ((inner.onSetting key value).map id wrapped, book)
  | relay r =>
    let ((ending, r), book) := r.onSetting key value book
    ((ending, relay r), book)

end TrialStage

instance : Stage Notebook TrialStage where
  name := TrialStage.name
  ports := TrialStage.ports
  onStart := TrialStage.onStart
  onEvent _ := TrialStage.onEvent
  onTerminate := TrialStage.onTerminate
  onSetting := TrialStage.onSetting

/-! ## Readers -/

/-- A reader to try a pipeline out with. -/
inductive TrialReader where
  | standard (reader : StandardReader)
  /-- A reader that emits some events, notes the answers and then ends in a given way. -/
  | scripted (name : String) (ports : List Port) (events : List (String × Event)) (ending : Ending)

namespace TrialReader

/-- The name of a reader. -/
def name : TrialReader → String
  | standard reader => reader.name
  | scripted name .. => name

/-- The ports of a reader. -/
def ports : TrialReader → List Port
  | standard reader => reader.ports
  | scripted _ ports .. => ports

/-- Gives out what there is to read. -/
def read (s : Surroundings) : TrialReader → Callback Notebook (Ending × TrialReader)
  | standard reader => Notebook.lift standard (reader.read s)
  | scripted name ports events ending => do
    Notebook.emitAll name events
    return (ending, scripted name ports events ending)

end TrialReader

instance : Reader Notebook TrialReader where
  name := TrialReader.name
  ports := TrialReader.ports
  read := TrialReader.read

end CallTrace.Trial
