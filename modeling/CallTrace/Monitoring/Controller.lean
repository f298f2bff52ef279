import CallTrace.Config
import CallTrace.Correlation
import CallTrace.Monitoring.Writer

/-!
# Controllers

A controller decides which records are accepted and hands them to its writer. Monitoring stops for
good once it is terminated, whether on request, because the writer failed, or because an execution
left with correlation data that cannot be trusted: what a log holds is complete up to the point
where it ends.
-/

namespace CallTrace.Monitoring

/-- Accepts records for a writer. -/
structure Controller (ω : Type) where
  /-- The host name in every record. -/
  host : String := "localhost"
  experiment : Int32 := 0
  /-- Whether records are written; this can be switched on and off. -/
  isWriting : Bool := true
  /-- Whether monitoring has stopped for good. -/
  isTerminated : Bool := false
  /-- Whether records keep the times they came with. -/
  isReplay : Bool := false
  /-- How many records were handed to the writer. -/
  inserts : UInt64 := 0
  /-- The trace ids that are still to be handed out. -/
  ids : TraceIds := .startingAt 0
  writer : ω

namespace Controller

variable {ω : Type}

/-- A controller with the given settings. Trace ids start at the configured one, or at `first` when
none is configured. -/
def ofConfig (config : Config.Monitoring) (first : Int64) (writer : ω) : Controller ω where
  host := config.host
  experiment := config.experiment
  isWriting := config.isEnabled
  isReplay := config.isReplay
  ids := .startingAt (config.firstTraceId.getD first)
  writer

/-- Whether probes are to record at all. -/
def isEnabled (controller : Controller ω) : Bool :=
  controller.isWriting && !controller.isTerminated

variable [RecordWriter ω]

/-- Stops monitoring for good and terminates the writer. The flag tells whether this call did it. -/
def terminate (controller : Controller ω) : Bool × Controller ω :=
  if controller.isTerminated then (false, controller)
  else
    (true,
      { controller with
        isTerminated := true
        writer := RecordWriter.terminate controller.writer })

/-- Hands a record to the writer. The answer is false while writing is switched off, and an error
once monitoring has stopped. An error of the writer stops it. -/
def write (controller : Controller ω) (record : Record) : Except Error Bool × Controller ω :=
  if controller.isTerminated then (.error .monitoringTerminated, controller)
  else if !controller.isWriting then (.ok false, controller)
  else
    let (result, writer) := RecordWriter.write controller.writer record
    let controller := { controller with inserts := controller.inserts + 1, writer }
    match result with
    | .ok () => (.ok true, controller)
    | .error e => (.error e, controller.terminate.2)

/-- Hands a record to the writer and tells only whether it was written. -/
def accept (controller : Controller ω) (record : Record) : Bool × Controller ω :=
  let (result, controller) := controller.write record
  (match result with
    | .ok isWritten => isWritten
    | .error _ => false, controller)

/-- Reports that an execution left with an order index or a depth that is unknown, which stops
monitoring. -/
def reportInvalid (controller : Controller ω) (eoi ess : Int32) : Error × Controller ω :=
  (.correlation s!"eoi {eoi} and ess {ess} are not valid at execution exit",
    controller.terminate.2)

/-- A report of the state, one line for each item. -/
def state (controller : Controller ω) : String :=
  "\n".intercalate [
    s!"Host: '{controller.host}'",
    s!"Experiment id: '{controller.experiment}'",
    s!"Replay mode: '{controller.isReplay}'",
    s!"Writing enabled: '{controller.isWriting}'",
    s!"Terminated: '{controller.isTerminated}'",
    s!"Number of inserts: '{controller.inserts}'",
    s!"Writer: {RecordWriter.info controller.writer}"]

end Controller

end CallTrace.Monitoring
