import CallTrace.Analysis
import CallTrace.Proofs.Model.Execution
import CallTrace.Proofs.Model.Types
import CallTrace.Proofs.Pipeline.Delivery
import CallTrace.Proofs.Stages.TraceReconstruction

/-!
# Deliveries in the standard analysis

Only three things change while the standard pipeline is at work: the reconstruction and the two
models (`Shows`). An execution in the window is put to its trace and its operation is added to the
type model; the calls of traces that are finished thereby are accounted for in the execution model
(`Shows.deliver_filter`). Every other record changes nothing.
-/

namespace CallTrace

open Pipeline Model

/-! ## The standard pipeline -/

namespace Analysis

/-- The members of the standard pipeline behind records in memory, with their subscribers. -/
def members (config : Config) (extractor : Extractor) (records : List Record)
    (reconstruction : TraceReconstruction) : List (Slot StandardStage StandardReader) := [
  Slot.subscribe
    ⟨MemoryReader.name, MemoryReader.ports, .reader (.memory { records }), false, ∅⟩
    MemoryReader.output ⟨⟨1⟩, TimestampFilter.input⟩,
  Slot.subscribe (Slot.subscribe
    ⟨TimestampFilter.name, TimestampFilter.ports, .stage (.filter (.ofConfig config.window)), false,
      ∅⟩
    TimestampFilter.within ⟨⟨2⟩, TraceReconstruction.input⟩)
    TimestampFilter.within ⟨⟨3⟩, TypeAssembler.input⟩,
  Slot.subscribe
    ⟨TraceReconstruction.name, TraceReconstruction.ports, .stage (.reconstruction reconstruction),
      false, ∅⟩
    TraceReconstruction.calls ⟨⟨4⟩, ExecutionAssembler.calls⟩,
  ⟨TypeAssembler.name, TypeAssembler.ports,
    .stage (.types { extractor, label := config.label }), false, ∅⟩,
  ⟨ExecutionAssembler.name, ExecutionAssembler.ports,
    .stage (.execution { extractor, label := config.label }), false, ∅⟩]

/-- The connections of the standard pipeline. -/
def connections : List Connection := [
  ⟨⟨0⟩, ⟨0⟩, MemoryReader.output, ⟨1⟩, TimestampFilter.input⟩,
  ⟨⟨1⟩, ⟨1⟩, TimestampFilter.within, ⟨2⟩, TraceReconstruction.input⟩,
  ⟨⟨2⟩, ⟨1⟩, TimestampFilter.within, ⟨3⟩, TypeAssembler.input⟩,
  ⟨⟨3⟩, ⟨2⟩, TraceReconstruction.calls, ⟨4⟩, ExecutionAssembler.calls⟩]

/-- The standard pipeline can be put together. -/
theorem pipeline_eq (config : Config) (extractor : Extractor) (records : List Record) :
    pipeline id config extractor (StandardReader.memory { records })
      = .ok (⟨⟨0⟩, ⟨1⟩, ⟨2⟩, ⟨3⟩, ⟨4⟩⟩, {
          slots := members config extractor records (.ofConfig config.reconstruction)
          connections }) := by
  with_unfolding_all rfl

/-! ## The window -/

/-- The executions among records that entered and left within a window. -/
def executionsIn (window : Config.Window) (records : List Record) : List Execution :=
  (records.filterMap Record.execution?).filter fun e =>
    window.notBefore.all (· ≤ e.tin) && window.notAfter.all (e.tout ≤ ·)

/-- These are the executions that the filter lets pass. -/
theorem executionsIn_eq (window : Config.Window) (records : List Record) :
    executionsIn window records = (records.filterMap Record.execution?).filter fun e =>
      (TimestampFilter.ofConfig window).isWithin (.execution e) := by
  refine List.filter_congr fun e _ => ?_
  have hbefore : window.notBefore.all (decide <| · ≤ e.tin)
      = decide (window.notBefore.getD Int64.minValue ≤ e.tin) := by
    cases window.notBefore <;> simp [Int64.minValue_le]
  have hafter : window.notAfter.all (decide <| e.tout ≤ ·)
      = decide (e.tout ≤ window.notAfter.getD Int64.maxValue) := by
    cases window.notAfter <;> simp [Int64.le_maxValue]
  rw [hbefore, hafter]
  rfl

theorem executionsIn_append (window : Config.Window) (records more : List Record) :
    executionsIn window (records ++ more)
      = executionsIn window records ++ executionsIn window more := by
  rw [executionsIn, List.filterMap_append, List.filter_append]
  rfl

theorem executionsIn_singleton (window : Config.Window) (record : Record) :
    executionsIn window [record]
      = if (TimestampFilter.ofConfig window).isWithin record then record.execution?.toList
        else [] := by
  rw [executionsIn_eq]
  cases record with
  | branching b => simp [Record.execution?]
  | execution e => simp [Record.execution?, List.filter_singleton, cond_eq_ite]

/-! ## What it has come to -/

/-- How far an analysis has come. -/
structure Progress where
  /-- The pipeline; only its flags are of interest. -/
  frame : Pipeline StandardStage StandardReader := {}
  /-- The records that the reader holds. -/
  unread : List Record
  reconstruction : TraceReconstruction
  types : TypeModel := {}
  execution : ExecutionModel := {}

namespace Progress

variable {progress : Progress} {config : Config} {extractor : Extractor}

/-- The standard pipeline that has come so far. -/
def pipeline (config : Config) (extractor : Extractor) (progress : Progress) :
    Pipeline StandardStage StandardReader :=
  { progress.frame with
    slots := members config extractor progress.unread progress.reconstruction
    connections }

/-- The operations of executions, under the signatures that an extractor picks. -/
def operations (extractor : Extractor) (executions : List Execution) : List OperationRef :=
  executions.map fun e => extractor.resolve e.site

/-- A call between two sites as a call between operations. -/
def resolveCall (extractor : Extractor) (call : Call) : Edge × Int64 :=
  (⟨extractor.resolve call.caller, extractor.resolve call.callee⟩, call.duration)

/-- The type model has been told of executions. -/
def addTypes (extractor : Extractor) (executions : List Execution) (progress : Progress) :
    Progress :=
  { progress with types := progress.types.ensureAll (operations extractor executions) }

/-- The execution model has been told of calls. -/
def addCalls (extractor : Extractor) (calls : List Call) (progress : Progress) : Progress :=
  { progress with execution := progress.execution.addAll (calls.map (resolveCall extractor)) }

/-- The reconstruction has become a new one with some outputs. -/
def advance (extractor : Extractor)
    (run : TraceReconstruction → List TraceReconstruction.Output × TraceReconstruction)
    (progress : Progress) : Progress :=
  { progress.addCalls extractor (TraceReconstruction.callsIn (run progress.reconstruction).1) with
    reconstruction := (run progress.reconstruction).2 }

theorem addCalls_append (calls more : List Call) :
    progress.addCalls extractor (calls ++ more)
      = (progress.addCalls extractor calls).addCalls extractor more := by
  simp only [addCalls, ExecutionModel.addAll, List.map_append, List.foldl_append]

/-- The reconstruction and the type model have been told of executions. -/
def observe (extractor : Extractor) (executions : List Execution) (progress : Progress) :
    Progress :=
  (progress.advance extractor (·.onExecutions executions)).addTypes extractor executions

theorem observe_append (executions more : List Execution) :
    progress.observe extractor (executions ++ more)
      = (progress.observe extractor executions).observe extractor more := by
  simp only [observe, advance, addTypes, addCalls, operations,
    TraceReconstruction.onExecutions_append, TraceReconstruction.callsIn_append,
    ExecutionModel.addAll, TypeModel.ensureAll, List.map_append, List.foldl_append]

end Progress

variable {config : Config} {extractor : Extractor} {progress : Progress}
  {system : System World StandardStage StandardReader}

/-- The system is a standard pipeline that has come so far. -/
structure Shows (config : Config) (extractor : Extractor) (progress : Progress)
    (system : System World StandardStage StandardReader) : Prop where
  pipeline : system.pipeline = progress.pipeline config extractor
  types : system.world.models.types = progress.types
  execution : system.world.models.execution = progress.execution

/-! ## Deliveries -/

variable {depth : Nat} {held : List StageId}

/-- In the standard pipeline the subscribers of a port are the targets of its connections. -/
theorem Progress.subscribers_eq (progress : Progress) (source : StageId) (output : String) :
    (progress.pipeline config extractor).subscribers source output
      = (connections.filter (·.leaves source output)).map (·.subscriber) := by
  obtain ⟨index⟩ := source
  -- the ports of each member in turn; no other slot is filled
  rcases index with _ | _ | _ | _ | _ | index
  all_goals
    simp only [Pipeline.subscribers, Pipeline.slot?, Progress.pipeline, members, connections,
      List.getElem?_cons_zero, List.getElem?_cons_succ, List.getElem?_nil, Option.elim,
      Slot.subscribersAt_subscribe, Connection.leaves, Connection.subscriber, List.filter_cons,
      List.filter_nil]
  · by_cases h : MemoryReader.output = output <;> simp [Slot.subscribersAt, h]
  · by_cases h : TimestampFilter.within = output <;> simp [Slot.subscribersAt, h]
  · by_cases h : TraceReconstruction.calls = output <;> simp [Slot.subscribersAt, h]
  all_goals simp [Slot.subscribersAt]

/-- An event goes to the subscribers of its port in the standard pipeline. -/
theorem Shows.broadcast_eq (h : Shows config extractor progress system) (source : StageId)
    (port : Port) (event : Event)
    (hport : (progress.pipeline config extractor).outputFor? source port.name event.type
      = some port)
    (deliver : StageId → String → Event → System World StandardStage StandardReader →
      System World StandardStage StandardReader) :
    (System.broadcast deliver source port.name event system).2
      = (connections.filter (·.leaves source port.name)).foldl
          (fun system c => deliver c.target c.input event system)
          (system.note (.emitted source port.name event true)) := by
  rw [System.broadcast_eq (h.pipeline ▸ hport), h.pipeline, Progress.subscribers_eq,
    List.foldl_map]
  rfl

theorem Shows.note (h : Shows config extractor progress system) (entry : Pipeline.Entry) :
    Shows config extractor progress (system.note entry) :=
  ⟨h.pipeline, h.types, h.execution⟩

/-- Putting a member back may change what has become of it. -/
theorem Shows.setMember {after : Progress} {id : StageId}
    {member : Member StandardStage StandardReader} (h : Shows config extractor progress system)
    (hmember : (progress.pipeline config extractor).modifySlot id ({ · with member })
      = after.pipeline config extractor)
    (htypes : progress.types = after.types) (hexecution : progress.execution = after.execution) :
    Shows config extractor after (system.setMember id member) where
  pipeline := by rw [← hmember, ← h.pipeline]; rfl
  types := h.types.trans htypes
  execution := h.execution.trans hexecution

/-- A delivery does what the callback of the stage does. -/
theorem Shows.deliver {final : Progress} {target : StageId} {input : String} {event : Event}
    {stage : StandardStage} (after : Progress) (become : StandardStage)
    (h : Shows config extractor progress system)
    (hfree : target ∉ held)
    (hstage : ((progress.pipeline config extractor).slot? target).bind Slot.stage? = some stage)
    (hperform : ∀ surroundings system, Shows config extractor progress system →
      Shows config extractor after (system.perform (Stage.onEvent surroundings input event stage)
        (System.broadcast (System.deliver depth (target :: held)) target)).2
      ∧ (system.perform (Stage.onEvent surroundings input event stage)
        (System.broadcast (System.deliver depth (target :: held)) target)).1.2 = become)
    (hbecome : (after.pipeline config extractor).modifySlot target
      ({ · with member := .stage become }) = final.pipeline config extractor)
    (htypes : after.types = final.types) (hexecution : after.execution = final.execution) :
    Shows config extractor final (System.deliver (depth + 1) held target input event system) := by
  rw [System.deliver_eq (h.pipeline ▸ hstage) hfree]
  obtain ⟨hafter, hstage'⟩ := hperform (system.surroundings target)
    (system.note (.called { stage := target, occasion := .event input event, held })) (h.note _)
  rw [hstage']
  exact hafter.setMember hbecome htypes hexecution

/-- A call is accounted for in the execution model. -/
theorem Shows.deliver_execution (h : Shows config extractor progress system)
    (hfree : ⟨4⟩ ∉ held) (call : Call) :
    Shows config extractor (progress.addCalls extractor [call])
      (System.deliver (depth + 1) held ⟨4⟩ ExecutionAssembler.calls (.call call) system) := by
  refine h.deliver _ (.execution { extractor, label := config.label }) hfree rfl ?_ rfl rfl rfl
  intro surroundings system h
  refine ⟨⟨h.pipeline, h.types, ?_⟩, rfl⟩
  show (system.world.models.execution.addCall _ _ _).2 = _
  rw [h.execution]
  rfl

/-- The operation of an execution is added to the type model. -/
theorem Shows.deliver_types (h : Shows config extractor progress system)
    (hfree : ⟨3⟩ ∉ held) (record : Record) :
    Shows config extractor (progress.addTypes extractor record.execution?.toList)
      (System.deliver (depth + 1) held ⟨3⟩ TypeAssembler.input (.record record) system) := by
  refine h.deliver _ (.types { extractor, label := config.label }) hfree rfl ?_ rfl rfl rfl
  intro surroundings system h
  refine ⟨?_, rfl⟩
  have hadded : Shows config extractor (progress.addTypes extractor record.execution?.toList)
      { system with
        world := system.world.modifyModels
          (TypeAssembler.addAll { extractor, label := config.label }
            (record.execution?.map Execution.site).toList) } := by
    refine ⟨h.pipeline, ?_, by cases record <;> exact h.execution⟩
    cases record with
    | execution e =>
      show (system.world.models.types.ensureOperation _).2 = _
      rw [h.types]
      rfl
    | branching b => exact h.types
  -- the stage passes the event on, but nobody listens
  have hunheard := hadded.broadcast_eq ⟨3⟩ (.output TypeAssembler.forward TypeAssembler.types)
    (.record record) (by cases record <;> rfl)
  exact (hunheard _).symm ▸ hadded.note _

/-- An output of the reconstruction reaches the execution model if it is a call. -/
theorem Shows.broadcast_output (h : Shows config extractor progress system) (hfree : ⟨4⟩ ∉ held)
    (output : TraceReconstruction.Output) :
    Shows config extractor (progress.addCalls extractor output.emission.2.call?.toList)
      (System.broadcast (System.deliver (depth + 1) held) ⟨2⟩ output.emission.1 output.emission.2
        system).2 := by
  cases output with
  | trace t =>
    have hunheard := h.broadcast_eq ⟨2⟩ (.output TraceReconstruction.traces [.executionTrace])
      (.trace t) rfl
    exact (hunheard _).symm ▸ h.note _
  | call c =>
    have hheard := h.broadcast_eq ⟨2⟩ (.output TraceReconstruction.calls [.operationCall])
      (.call c) rfl
    exact (hheard _).symm ▸ (h.note _).deliver_execution hfree c
  | invalid e =>
    have hunheard := h.broadcast_eq ⟨2⟩ (.output TraceReconstruction.invalids [.operationExecution])
      (.record (.execution e)) rfl
    exact (hunheard _).symm ▸ h.note _

/-- What the reconstruction gives out reaches the execution model as far as it consists of calls. -/
theorem Shows.perform_outputs {emit : String → Event → System World StandardStage StandardReader →
      Bool × System World StandardStage StandardReader}
    (h : Shows config extractor progress system) (hfree : ⟨4⟩ ∉ held)
    (hemit : ∀ progress system, Shows config extractor progress system → ∀ port event,
      emit port event system
        = System.broadcast (System.deliver (depth + 1) held) ⟨2⟩ port event system)
    (outputs : List TraceReconstruction.Output) :
    Shows config extractor (progress.addCalls extractor (TraceReconstruction.callsIn outputs))
      (system.perform (Callback.sendAll (outputs.map (·.emission))) emit).2 := by
  induction outputs generalizing progress system with
  | nil => exact h
  | cons output outputs ih =>
    have hfirst : Shows config extractor
        (progress.addCalls extractor output.emission.2.call?.toList)
        (emit output.emission.1 output.emission.2 system).2 := by
      rw [hemit progress system h]
      exact h.broadcast_output hfree output
    have hcalls : TraceReconstruction.callsIn (output :: outputs)
        = output.emission.2.call?.toList ++ TraceReconstruction.callsIn outputs := by
      cases output <;> rfl
    rw [hcalls, Progress.addCalls_append]
    exact ih hfirst

/-- The reconstruction gives its outputs out before it changes. -/
theorem perform_lift_sendAll (system : System World StandardStage StandardReader)
    (outputs : List TraceReconstruction.Output) (stage : TraceReconstruction)
    (emit : String → Event → System World StandardStage StandardReader →
      Bool × System World StandardStage StandardReader) :
    system.perform (StandardStage.lift .reconstruction (do
        Callback.sendAll (outputs.map (·.emission))
        return (.returned, stage))) emit
      = ((.returned, .reconstruction stage),
          (system.perform (Callback.sendAll (outputs.map (·.emission))) emit).2) := by
  rw [StandardStage.lift, System.perform_bind, System.perform_bind]
  rfl

/-- An execution is put to its trace. -/
theorem Shows.deliver_reconstruction (h : Shows config extractor progress system)
    (hfree : ⟨2⟩ ∉ held) (hcalls : ⟨4⟩ ∉ held) (record : Record) :
    Shows config extractor (progress.advance extractor (·.onExecutions record.execution?.toList))
      (System.deliver (depth + 2) held ⟨2⟩ TraceReconstruction.input (.record record) system) := by
  cases record with
  | branching b =>
    exact h.deliver progress (.reconstruction progress.reconstruction) hfree rfl
      (fun _ _ h => ⟨h, rfl⟩) rfl rfl rfl
  | execution e =>
    simp only [Record.execution?, Option.toList, TraceReconstruction.onExecutions_singleton]
    refine h.deliver (progress.addCalls extractor
      (TraceReconstruction.callsIn (progress.reconstruction.onExecution e).1))
      (.reconstruction (progress.reconstruction.onExecution e).2) hfree rfl ?_ rfl rfl rfl
    intro surroundings system h
    have hperform := perform_lift_sendAll system (progress.reconstruction.onExecution e).1
      (progress.reconstruction.onExecution e).2
    refine hperform _ ▸ ⟨h.perform_outputs ?_ (fun _ _ _ _ _ => rfl) _, rfl⟩
    simpa using hcalls

/-- **An execution in the window reaches the reconstruction and the type model**; no other record
changes anything. -/
theorem Shows.deliver_filter (h : Shows config extractor progress system)
    (hheld : ∀ id : Nat, 0 < id → ⟨id⟩ ∉ held) (record : Record) :
    Shows config extractor (progress.observe extractor (executionsIn config.window [record]))
      (System.deliver (depth + 3) held ⟨1⟩ TimestampFilter.input (.record record) system) := by
  refine h.deliver _ (.filter (.ofConfig config.window)) (hheld 1 (by decide)) rfl ?_ rfl rfl rfl
  intro surroundings system h
  refine ⟨?_, rfl⟩
  show Shows config extractor _ (System.broadcast _ ⟨1⟩
    ((TimestampFilter.ofConfig config.window).portOf record) (.record record) system).2
  rw [executionsIn_singleton, TimestampFilter.portOf]
  by_cases hwithin : (TimestampFilter.ofConfig config.window).isWithin record
  · rw [if_pos hwithin, if_pos hwithin]
    have hheard := h.broadcast_eq ⟨1⟩ (.output TimestampFilter.within [.monitoringRecord])
      (.record record) (by cases record <;> rfl)
    refine (hheard _).symm ▸ ?_
    have hfree : ∀ id : Nat, 1 < id → ⟨id⟩ ∉ ⟨1⟩ :: held := by
      intro id hid
      have := hheld id (by omega)
      simp_all
      omega
    -- the reconstruction was connected first
    refine Shows.deliver_types ?_ (hfree 3 (by decide)) record
    exact (h.note _).deliver_reconstruction (hfree 2 (by decide)) (hfree 4 (by decide)) record
  · rw [if_neg hwithin, if_neg hwithin]
    have hunheard := h.broadcast_eq ⟨1⟩ (.output TimestampFilter.outside [.monitoringRecord])
      (.record record) (by cases record <;> rfl)
    exact (hunheard _).symm ▸ h.note _

end Analysis

end CallTrace
