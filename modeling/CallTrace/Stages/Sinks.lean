import CallTrace.Pipeline.Callback
import CallTrace.World

/-!
# Sinks

The stages at which events leave a pipeline: a collector keeps them, a queue sink sends them to
another pipeline.
-/

namespace CallTrace

open Pipeline

/-! ## Collectors -/

/-- A stage that keeps every event. -/
structure Collector where
  /-- What its port declares. -/
  types : List EventType := [.any]
  /-- The events, the latest one first. -/
  collected : List Event := []
  /-- How often it was told that the pipeline terminates. -/
  terminations : Nat := 0
  deriving DecidableEq, Repr

namespace Collector

/-- The name of the stage. -/
def name : String := "Collector"

/-- The port that takes events. -/
def input : String := "events"

/-- The ports of the stage. -/
def ports (collector : Collector) : List Port := [.input input collector.types]

/-- The events in the order of their arrival. -/
def events (collector : Collector) : List Event := collector.collected.reverse

/-- Takes the events out. -/
def take (collector : Collector) : List Event × Collector :=
  (collector.events, { collector with collected := [] })

/-- Whether it was told that the pipeline terminates. -/
def isTerminated (collector : Collector) : Bool := 0 < collector.terminations

/-- Keeps an event. -/
def onEvent (event : Event) (collector : Collector) : Callback World (Ending × Collector) :=
  return (.returned, { collector with collected := event :: collector.collected })

/-- Notes that the pipeline terminates. -/
def onTerminate (collector : Collector) : Callback World (Ending × Collector) :=
  return (.returned, { collector with terminations := collector.terminations + 1 })

end Collector

/-! ## Queue sinks -/

/-- A stage that sends every event to a queue until the pipeline terminates. -/
structure QueueSink where
  /-- The number of the queue. -/
  queue : Nat
  /-- Whether the stage still holds the sending end. -/
  isOpen : Bool := true
  deriving DecidableEq, Repr

namespace QueueSink

/-- The name of the stage. -/
def name : String := "QueueSink"

/-- The port that takes events. -/
def input : String := "events"

/-- The ports of the stage. -/
def ports : List Port := [.input input [.any]]

/-- Sends an event. -/
def onEvent (event : Event) (sink : QueueSink) : Callback World (Ending × QueueSink) := do
  if !sink.isOpen then
    return (.failed (.other (.channel "Queue already closed")), sink)
  else if !((← Callback.world).queue sink.queue).hasReceiver then
    return (.failed (.other (.channel "Queue receiver disconnected")), sink)
  else
    Callback.change (World.modifyQueue sink.queue (·.send event))
    return (.returned, sink)

/-- Gives the sending end up, which ends the queue. -/
def onTerminate (sink : QueueSink) : Callback World (Ending × QueueSink) := do
  Callback.change (World.modifyQueue sink.queue ({ · with hasSender := false }))
  return (.returned, { sink with isOpen := false })

end QueueSink

end CallTrace
