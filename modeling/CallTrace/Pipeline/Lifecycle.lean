import CallTrace.Pipeline.Delivery

/-!
# The life of a pipeline

A pipeline is started once: every stage hears of it, each before those that it feeds, and the
readers set out. Waiting for the readers runs each of them to its end. Terminating tells every stage
and reader once, in the same order, so that what they emit last reaches stages that have not been
told yet.

A panic at the start, at the end or on a change of a setting makes the stage unusable. One at the
start or at the end also ends the whole operation at once.
-/

namespace CallTrace.Pipeline

/-- How an operation on a pipeline ended. -/
inductive Reply where
  | done
  | refused (refusal : Refusal)
  | panicked
  deriving DecidableEq, Repr

namespace System

variable {W σ ρ : Type}

/-- What is said of a member that a panic has made unusable. -/
def poisonedMessage : String := "poisoned lock: another task failed inside"

/-! ## Callbacks outside of deliveries -/

/-- Runs a callback of a stage or reader, which is held meanwhile. A panic makes it unusable. -/
def callBack [Stage W σ] {μ : Type} (system : System W σ ρ) (id : StageId) (occasion : Occasion)
    (callback : Surroundings → Callback W (Ending × μ)) (member : μ → Member σ ρ) :
    Ending × System W σ ρ :=
  let system := system.note (.called { stage := id, occasion, held := [] })
  let ((ending, value), system) :=
    system.perform (callback (system.surroundings id)) (emitFrom [id] id)
  let system := system.setMember id (member value)
  match ending with
  | .panicked => (ending, system.poison id)
  | _ => (ending, system)

/-- Starts the member of a slot; a reader and an unusable stage are passed over. -/
def startMember [Stage W σ] (system : System W σ ρ) (id : StageId) : Ending × System W σ ρ :=
  match (system.pipeline.slot? id).bind Slot.stage? with
  | some stage => system.callBack id .start (Stage.onStart · stage) .stage
  | none => (.returned, system)

/-- Terminates the member of a slot; an unusable one is passed over. -/
def terminateMember [Stage W σ] [Reader W ρ] (system : System W σ ρ) (id : StageId) :
    Ending × System W σ ρ :=
  match system.pipeline.slot? id with
  | some { member := .stage stage, isPoisoned := false, .. } =>
    system.callBack id .terminate (Stage.onTerminate · stage) .stage
  | some { member := .reader reader, isPoisoned := false, .. } =>
    system.callBack id .terminate (Reader.onTerminate · reader) .reader
  | _ => (.returned, system)

/-- Does something to one member after the other, up to the first panic. The flag tells whether it
came to the end. -/
def forMembers (step : System W σ ρ → StageId → Ending × System W σ ρ) :
    List StageId → System W σ ρ → Bool × System W σ ρ
  | [], system => (true, system)
  | id :: rest, system =>
    match step system id with
    | (.panicked, system) => (false, system)
    | (_, system) => forMembers step rest system

/-! ## Start, wait and end -/

/-- The ids of the readers. -/
def readers (system : System W σ ρ) : List StageId :=
  (stageIds system.pipeline.size).filter fun id =>
    (system.pipeline.slot? id).any Slot.isReader

/-- Starts the stages and sends the readers out. -/
def start [Stage W σ] (system : System W σ ρ) : Reply × System W σ ρ :=
  if system.pipeline.isStarted then (.refused .alreadyStarted, system)
  else
    let system := { system with pipeline := { system.pipeline with isStarted := true } }
    match forMembers startMember system.pipeline.order system with
    | (false, system) => (.panicked, system)
    | (true, system) =>
      (.done, { system with pipeline := { system.pipeline with running := system.readers } })

/-- Runs a reader to its end. -/
def runReader [Stage W σ] [Reader W ρ] (system : System W σ ρ) (id : StageId) :
    Option Refusal × System W σ ρ :=
  match system.pipeline.slot? id with
  | some { member := .reader reader, isPoisoned := false, .. } =>
    match system.callBack id .read (Reader.read · reader) .reader with
    | (.returned, system) => (none, system)
    | (.failed fault, system) => (some (.readerFailed id fault.message), system)
    | (.panicked, system) => (some (.readerPanicked id), system)
  | _ => (some (.readerFailed id poisonedMessage), system)

/-- Waits for readers one after the other; the first failure is reported. -/
def joinAll [Stage W σ] [Reader W ρ] :
    List StageId → System W σ ρ → Option Refusal × System W σ ρ
  | [], system => (none, system)
  | id :: rest, system =>
    let (failure, system) := system.runReader id
    let (later, system) := joinAll rest system
    (failure.orElse fun _ => later, system)

/-- Waits for the readers that were sent out. -/
def join [Stage W σ] [Reader W ρ] (system : System W σ ρ) : Reply × System W σ ρ :=
  let running := system.pipeline.running
  let system := { system with pipeline := { system.pipeline with running := [] } }
  let (failure, system) := joinAll running system
  (failure.elim .done .refused, system)

/-- Asks the readers to stop and tells every member, once, that the pipeline terminates. -/
def terminate [Stage W σ] [Reader W ρ] (system : System W σ ρ) : Reply × System W σ ρ :=
  let system := { system with pipeline := { system.pipeline with isTerminated := true } }
  if system.pipeline.isClosed then (.done, system)
  else
    let system := { system with pipeline := { system.pipeline with isClosed := true } }
    let (completed, system) := forMembers terminateMember system.pipeline.order system
    (if completed then .done else .panicked, system)

/-- Starts the pipeline, waits for its readers and terminates it. It is terminated even when a
reader failed; the failure is reported afterwards. -/
def run [Stage W σ] [Reader W ρ] (system : System W σ ρ) : Reply × System W σ ρ :=
  match system.start with
  | (.done, system) =>
    let (joined, system) := system.join
    match system.terminate with
    | (.done, system) => (joined, system)
    | (reply, system) => (reply, system)
  | (reply, system) => (reply, system)

/-! ## Settings -/

/-- Changes a setting of a stage. -/
def configure [Stage W σ] (system : System W σ ρ) (id : StageId) (key : String)
    (value : Setting) : Reply × System W σ ρ :=
  match system.pipeline.slot? id with
  | none => (.refused (.unknownStage id), system)
  | some { member := .reader _, .. } =>
    (.refused (.setting id "readers take no runtime configuration"), system)
  | some { member := .stage _, isPoisoned := true, .. } =>
    (.refused (.setting id ("Failed to acquire stage lock: " ++ poisonedMessage)), system)
  | some { member := .stage stage, isPoisoned := false, .. } =>
    let ((ending, stage), world) := Stage.onSetting key value stage system.world
    let system := { system with world }.setMember id (.stage stage)
    match ending with
    | .returned => (.done, system)
    | .failed fault => (.refused (.setting id fault.message), system)
    | .panicked => (.panicked, system.poison id)

end System

end CallTrace.Pipeline
