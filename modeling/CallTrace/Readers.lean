import CallTrace.Log.Replay
import CallTrace.Stages.Sinks

/-!
# Readers

The sources of an analysis: records held in memory, a binary log, and a queue that another pipeline
or a monitoring controller fills. A reader that finds the pipeline terminated reads nothing.
-/

namespace CallTrace

open Pipeline

/-! ## Records in memory -/

/-- A reader of records held in memory. -/
structure MemoryReader where
  records : List Record
  deriving DecidableEq, Repr

namespace MemoryReader

/-- The name of the reader. -/
def name : String := "MemoryReader"

/-- The port at which records leave. -/
def output : String := "records"

/-- The ports of the reader. -/
def ports : List Port := [.output output [.monitoringRecord]]

/-- Gives out the records, once. -/
def read (surroundings : Surroundings) (reader : MemoryReader) :
    Callback World (Ending × MemoryReader) := do
  if !surroundings.isTerminated then
    Callback.sendAll (reader.records.map fun record => (output, .record record))
  return (.returned, { records := [] })

end MemoryReader

/-! ## Binary logs -/

/-- A reader of a binary log. -/
structure LogReader where
  decoder : Log.Decoder
  /-- Whether records that cannot be decoded are passed over where the log stays readable. -/
  skipsMalformed : Bool

namespace LogReader

/-- The name of the reader. -/
def name : String := "BinaryLogReader"

/-- The port at which records leave. -/
def output : String := "records"

/-- The ports of the reader. -/
def ports : List Port := [.output output [.monitoringRecord]]

/-- A reader at the start of a log. -/
def ofSource (source : Log.Source) (skipsMalformed : Bool) : LogReader :=
  { decoder := .ofSource source, skipsMalformed }

/-- Gives out the records up to the end of the log or to a fault that stops the reading. -/
def read (surroundings : Surroundings) (reader : LogReader) :
    Callback World (Ending × LogReader) := do
  if surroundings.isTerminated then
    return (.returned, reader)
  else
    let (records, fault, decoder) := reader.decoder.replay reader.skipsMalformed
    Callback.sendAll (records.map fun record => (output, .record record))
    return (fault.elim .returned fun fault => .failed (.log fault), { reader with decoder })

end LogReader

/-! ## Queues -/

/-- A reader of a queue. -/
structure ChannelReader where
  /-- The number of the queue. -/
  queue : Nat
  /-- What the port declares. -/
  types : List EventType
  deriving DecidableEq, Repr

namespace ChannelReader

/-- The name of the reader. -/
def name : String := "ChannelReader"

/-- The port at which events leave. -/
def output : String := "events"

/-- The ports of the reader. -/
def ports (reader : ChannelReader) : List Port := [.output output reader.types]

/-- One turn of the reader: it gives out the next event, if there is one. -/
def turn (reader : ChannelReader) : Callback World Queue.Received :=
  .observe fun world =>
    match (world.queue reader.queue).receive with
    | (.event event, queue) =>
      .update (World.modifyQueue reader.queue fun _ => queue)
        (.emit output event fun _ => .done (.event event))
    | (found, _) => .done found

/-- Takes at most so many turns, for as long as they find events. -/
def receive (reader : ChannelReader) : Nat → Callback World Unit
  | 0 => return ()
  | count + 1 => do
    match ← reader.turn with
    | .event _ => reader.receive count
    | _ => return ()

/-- Gives out what waits in the queue. When the queue is empty, the reading is over, also if the
sender is still there; a program whose sender runs beside it goes on polling the queue until the
sender has left. -/
def read (surroundings : Surroundings) (reader : ChannelReader) :
    Callback World (Ending × ChannelReader) := do
  if !surroundings.isTerminated then
    reader.receive ((← Callback.world).queue reader.queue).waiting.length
  return (.returned, reader)

end ChannelReader

/-- A queue sink and the reader of its queue, which declares what leaves it. -/
def World.linkPipelines (world : World) (capacity : Nat) (types : List EventType) :
    (QueueSink × ChannelReader) × World :=
  let (queue, world) := world.openQueue { capacity }
  (({ queue }, { queue, types }), world)

/-! ## The standard readers -/

/-- The readers of an analysis. -/
inductive StandardReader where
  | memory (reader : MemoryReader)
  | log (reader : LogReader)
  | channel (reader : ChannelReader)

namespace StandardReader

/-- The name of a reader. -/
def name : StandardReader → String
  | memory _ => MemoryReader.name
  | log _ => LogReader.name
  | channel _ => ChannelReader.name

/-- The ports of a reader. -/
def ports : StandardReader → List Port
  | memory _ => MemoryReader.ports
  | log _ => LogReader.ports
  | channel reader => reader.ports

/-- A callback's result for the reader as one of the standard readers. -/
def lift {ρ : Type} (wrap : ρ → StandardReader) (callback : Callback World (Ending × ρ)) :
    Callback World (Ending × StandardReader) := do
  let (ending, reader) ← callback
  return (ending, wrap reader)

/-- Gives out what there is to read. -/
def read (surroundings : Surroundings) :
    StandardReader → Callback World (Ending × StandardReader)
  | memory reader => lift .memory (reader.read surroundings)
  | log reader => lift .log (reader.read surroundings)
  | channel reader => lift .channel (reader.read surroundings)

end StandardReader

instance : Reader World StandardReader where
  name := StandardReader.name
  ports := StandardReader.ports
  read := StandardReader.read

end CallTrace
