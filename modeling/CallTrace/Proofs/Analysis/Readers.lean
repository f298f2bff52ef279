import CallTrace.Proofs.Analysis.Run
import CallTrace.Proofs.Pipeline.Replacement
import CallTrace.Proofs.Pipeline.Typing

/-!
# The standard analysis behind any reader

Whatever reader an analysis has, after each of its emissions and in the end the models are those of
an analysis of some records in memory, namely of the records that the reader has given out so far
(`Stands.pauses`, `Stands.run`). A reader cannot give out anything else to the analysis, for its
port would not fit.
-/

namespace CallTrace

open Pipeline Model

namespace Pipeline

/-! ## Between emissions -/

namespace Callback

variable {W V α β S : Type}

/-- The callback itself never changes a part of the world. -/
def Spares (part : W → V) : Callback W α → Prop
  | done _ => True
  | Callback.emit _ _ next => ∀ accepted, (next accepted).Spares part
  | update change next => (∀ world, part (change world) = part world) ∧ next.Spares part
  | observe next => ∀ world, (next world).Spares part

theorem Spares.bind {part : W → V} {callback : Callback W α} {f : α → Callback W β}
    (h : callback.Spares part) (hf : ∀ result, (f result).Spares part) :
    (callback >>= f).Spares part := by
  induction callback with
  | done result => exact hf result
  | emit port event next ih => exact fun accepted => ih accepted (h accepted)
  | update change next ih => exact ⟨h.1, ih h.2⟩
  | observe next ih => exact fun world => ih world (h world)

theorem spares_sendAll (part : W → V) (emissions : List (String × Event)) :
    (sendAll emissions : Callback W Unit).Spares part := by
  induction emissions with
  | nil => trivial
  | cons emission emissions ih => exact fun _ => ih

/-- The states right after each emission of a callback that is run, when the emission has been
answered. -/
def pauses (get : S → W) (set : W → S → S) (emit : String → Event → S → Bool × S) :
    Callback W α → S → List S
  | done _, _ => []
  | Callback.emit port event next, state =>
    let (accepted, state) := emit port event state
    state :: (next accepted).pauses get set emit state
  | update change next, state => next.pauses get set emit (set (change (get state)) state)
  | observe next, state => (next (get state)).pauses get set emit state

section Pauses

variable {get : S → W} {set : W → S → S} {emit : String → Event → S → Bool × S}

theorem pauses_bind (callback : Callback W α) (f : α → Callback W β) (state : S) :
    (callback >>= f).pauses get set emit state = callback.pauses get set emit state
      ++ (f (callback.run get set emit state).1).pauses get set emit
        (callback.run get set emit state).2 := by
  induction callback generalizing state with
  | done result => rfl
  | emit port event next ih => exact congrArg (List.cons _) (ih _ _)
  | update change next ih => exact ih _
  | observe next ih => exact ih _ _

theorem length_pauses_sendAll (emissions : List (String × Event)) (state : S) :
    ((sendAll emissions).pauses get set emit state).length = emissions.length := by
  induction emissions generalizing state with
  | nil => rfl
  | cons emission emissions ih => exact congrArg Nat.succ (ih _)

end Pauses

end Callback

namespace System

variable {W σ ρ α : Type} [Stage W σ]

/-- The states right after each emission of a member's callback outside of deliveries. -/
def callBackPauses (system : System W σ ρ) (id : StageId) (occasion : Occasion)
    (callback : Surroundings → Callback W α) : List (System W σ ρ) :=
  let system := system.note (.called { stage := id, occasion, held := [] })
  (callback (system.surroundings id)).pauses (·.world) (fun world system => { system with world })
    (emitFrom [id] id) system

variable [Reader W ρ]

/-- The states right after each emission of a reader that runs to its end. -/
def readerPauses (system : System W σ ρ) (id : StageId) : List (System W σ ρ) :=
  match system.pipeline.slot? id with
  | some { member := .reader reader, isPoisoned := false, .. } =>
    system.callBackPauses id .read (Reader.read · reader)
  | _ => []

/-- The states right after each emission of readers that are waited for one after the other. -/
def joinPauses : List StageId → System W σ ρ → List (System W σ ρ)
  | [], _ => []
  | id :: rest, system => system.readerPauses id ++ joinPauses rest (system.runReader id).2

/-- The states of a run right after each emission of a reader. -/
def runPauses (system : System W σ ρ) : List (System W σ ρ) :=
  match system.start with
  | (.done, system) =>
    joinPauses system.pipeline.running
      { system with pipeline := { system.pipeline with running := [] } }
  | _ => []

end System

theorem run_bind {σ ρ α β : Type} (step : Step σ ρ α) (f : α → Step σ ρ β) (p : Pipeline σ ρ) :
    (step >>= f).run p = match step.run p with
      | (.ok result, q) => (f result).run q
      | (.error refusal, q) => (.error refusal, q) := by
  have hrun : (step >>= f).run p = ExceptT.bindCont f (step.run p).1 (step.run p).2 := rfl
  rw [hrun]
  generalize step.run p = ran
  obtain ⟨result, q⟩ := ran
  cases result <;> rfl

end Pipeline

/-! ## Readers -/

namespace StandardReader

/-- No reader changes the models. -/
theorem read_spares_models (surroundings : Surroundings) (reader : StandardReader) :
    (Reader.read surroundings reader).Spares World.models := by
  have hlift : ∀ {ρ : Type} (wrap : ρ → StandardReader) {callback : Callback World (Ending × ρ)},
      callback.Spares World.models → (lift wrap callback).Spares World.models :=
    fun _ _ h => h.bind fun _ => trivial
  obtain ⟨stage, isTerminated⟩ := surroundings
  cases reader with
  | memory reader =>
    refine hlift _ ?_
    cases isTerminated with
    | true => exact trivial
    | false => exact (Callback.spares_sendAll _ _).bind fun _ => trivial
  | log reader =>
    refine hlift _ ?_
    cases isTerminated with
    | true => exact trivial
    | false => exact (Callback.spares_sendAll _ _).bind fun _ => trivial
  | channel reader =>
    refine hlift _ ?_
    have hturn : reader.turn.Spares World.models := by
      intro world
      dsimp only
      split
      · exact ⟨fun _ => rfl, fun _ => trivial⟩
      · trivial
    have hreceive : ∀ count, (reader.receive count).Spares World.models := by
      intro count
      induction count with
      | zero => trivial
      | succ count ih =>
        refine hturn.bind fun found => ?_
        cases found with
        | event _ => exact ih
        | nothing => trivial
        | ended => trivial
    cases isTerminated with
    | true => exact trivial
    | false => exact fun world => (hreceive _).bind fun _ => trivial

end StandardReader

namespace Analysis

/-! ## The pipeline behind a reader -/

/-- The port that takes what a reader gives out. -/
def entrance : Port := .input TimestampFilter.input [.monitoringRecord]

/-- The slot of a reader whose port is connected to the entrance. -/
def frontOf (reader : StandardReader) (port : Port) : Slot StandardStage StandardReader :=
  Slot.subscribe ⟨reader.name, [port], .reader reader, false, ∅⟩ port.name
    ⟨⟨1⟩, TimestampFilter.input⟩

/-- The connection from the port of a reader to the entrance. -/
def connectionFrom (port : Port) : Connection :=
  ⟨⟨0⟩, ⟨0⟩, port.name, ⟨1⟩, TimestampFilter.input⟩

/-- The port of a reader. -/
def portOf : StandardReader → Port
  | .memory _ => .output MemoryReader.output [.monitoringRecord]
  | .log _ => .output LogReader.output [.monitoringRecord]
  | .channel reader => .output ChannelReader.output reader.types

theorem ports_eq (reader : StandardReader) : Reader.ports reader = [portOf reader] := by
  cases reader <;> rfl

/-- The slots before anything is connected. -/
def unconnected (config : Config) (extractor : Extractor) (reader : StandardReader) :
    Pipeline StandardStage StandardReader where
  slots := { name := reader.name, ports := [portOf reader], member := .reader reader }
    :: (members config extractor [] (.ofConfig config.reconstruction)).tail.map
      ({ · with subscribers := ∅ })

/-- The connections that do not depend on the reader. -/
def connectStages : Step StandardStage StandardReader Members := do
  let _ ← tryConnect ⟨1⟩ TimestampFilter.within ⟨2⟩ TraceReconstruction.input
  let _ ← tryConnect ⟨1⟩ TimestampFilter.within ⟨3⟩ TypeAssembler.input
  let _ ← tryConnect ⟨2⟩ TraceReconstruction.calls ⟨4⟩ ExecutionAssembler.calls
  return ⟨⟨0⟩, ⟨1⟩, ⟨2⟩, ⟨3⟩, ⟨4⟩⟩

theorem run_addSlot_bind {α : Type} (slots : List (Slot StandardStage StandardReader))
    (slot : Slot StandardStage StandardReader)
    (f : StageId → Step StandardStage StandardReader α) :
    (addSlot slot >>= f).run { slots } = (f ⟨slots.length⟩).run { slots := slots ++ [slot] } :=
  rfl

/-- Once the slots are filled, the reader is connected first. -/
theorem assemble_eq (config : Config) (extractor : Extractor) (reader : StandardReader) :
    (assemble id config extractor reader).run {}
      = (tryConnect ⟨0⟩ (portOf reader).name ⟨1⟩ TimestampFilter.input
          >>= fun _ => connectStages).run (unconnected config extractor reader) := by
  have hport : [portOf reader].find? (·.direction == .output) = some (portOf reader) := by
    cases reader <;> rfl
  rw [assemble, ports_eq, hport]
  simp only [addReader, addStage, ports_eq]
  rw [run_addSlot_bind, run_addSlot_bind, run_addSlot_bind, run_addSlot_bind, run_addSlot_bind]
  rfl

/-- The standard pipeline behind a reader, before any event. -/
def pipelineBehind (config : Config) (extractor : Extractor) (reader : StandardReader) :
    Pipeline StandardStage StandardReader :=
  Pipeline.withFront (frontOf reader (portOf reader))
    (connectionFrom (portOf reader) :: connections.tail)
    { slots := members config extractor [] (.ofConfig config.reconstruction) }

/-- The pipeline behind a reader when so many of its stages have been connected. -/
def connectedUpTo (count : Nat) (config : Config) (extractor : Extractor)
    (reader : StandardReader) : Pipeline StandardStage StandardReader :=
  (connections.tail.take count).foldl Pipeline.addConnection
    ((unconnected config extractor reader).addConnection (connectionFrom (portOf reader)))

theorem run_tryConnect_bind {α : Type} {p : Pipeline StandardStage StandardReader}
    {source target : StageId} {output input : String} {out inp : Port}
    (h : p.joined source output target input = .ok (out, inp))
    (f : ConnectionId → Step StandardStage StandardReader α) :
    (tryConnect source output target input >>= f).run p = (f ⟨p.connections.length⟩).run
      (p.addConnection ⟨⟨p.connections.length⟩, source, out.name, target, inp.name⟩) := by
  rw [run_bind, tryConnect_eq, h]

theorem connectStages_eq (config : Config) (extractor : Extractor) (reader : StandardReader) :
    connectStages.run ((unconnected config extractor reader).addConnection
        (connectionFrom (portOf reader)))
      = (.ok ⟨⟨0⟩, ⟨1⟩, ⟨2⟩, ⟨3⟩, ⟨4⟩⟩, pipelineBehind config extractor reader) := by
  have hreconstruction : (connectedUpTo 0 config extractor reader).joined ⟨1⟩
      TimestampFilter.within ⟨2⟩ TraceReconstruction.input
        = .ok (.output TimestampFilter.within [.monitoringRecord],
          .input TraceReconstruction.input [.monitoringRecord]) := by with_unfolding_all rfl
  have htypes : (connectedUpTo 1 config extractor reader).joined ⟨1⟩
      TimestampFilter.within ⟨3⟩ TypeAssembler.input
        = .ok (.output TimestampFilter.within [.monitoringRecord],
          .input TypeAssembler.input TypeAssembler.types) := by with_unfolding_all rfl
  have hcalls : (connectedUpTo 2 config extractor reader).joined ⟨2⟩
      TraceReconstruction.calls ⟨4⟩ ExecutionAssembler.calls
        = .ok (.output TraceReconstruction.calls [.operationCall],
          .input ExecutionAssembler.calls [.operationCall]) := by with_unfolding_all rfl
  have hall : connectedUpTo 3 config extractor reader = pipelineBehind config extractor reader := by
    with_unfolding_all rfl
  rw [← hall, connectStages]
  show (tryConnect _ _ _ _ >>= _).run (connectedUpTo 0 config extractor reader) = _
  rw [run_tryConnect_bind hreconstruction]
  show (tryConnect _ _ _ _ >>= _).run (connectedUpTo 1 config extractor reader) = _
  rw [run_tryConnect_bind htypes]
  show (tryConnect _ _ _ _ >>= _).run (connectedUpTo 2 config extractor reader) = _
  rw [run_tryConnect_bind hcalls]
  rfl

/-- **An analysis can be put together only behind a reader whose port fits.** -/
theorem pipeline_of_eq_ok {config : Config} {extractor : Extractor} {reader : StandardReader}
    {built : Members × Pipeline StandardStage StandardReader}
    (h : pipeline id config extractor reader = .ok built) :
    (portOf reader).canConnectTo entrance
      ∧ built.2 = pipelineBehind config extractor reader := by
  rw [pipeline, assemble_eq, run_bind, tryConnect_eq] at h
  cases hjoined : (unconnected config extractor reader).joined ⟨0⟩ (portOf reader).name ⟨1⟩
    TimestampFilter.input with
  | error refusal =>
    rw [hjoined] at h
    cases h
  | ok ports =>
    obtain ⟨out, inp⟩ := ports
    obtain ⟨hout, hinp⟩ := names_of_joined hjoined
    have hjoins : (unconnected config extractor reader).Joins (connectionFrom (portOf reader)) out
        inp := (joined_eq_ok_iff.mp hjoined).2.1
    have hport : out = portOf reader := List.mem_singleton.mp (Port.find?_eq_some hjoins.output).1
    have hentrance : entrance = inp := Option.some.inj hjoins.input
    refine ⟨hport ▸ hentrance ▸ hjoins.fits, ?_⟩
    have hfirst : (⟨⟨(unconnected config extractor reader).connections.length⟩, ⟨0⟩, out.name, ⟨1⟩,
        inp.name⟩ : Connection) = connectionFrom (portOf reader) := by
      rw [hout, hinp]
      rfl
    rw [hjoined] at h
    dsimp only at h
    rw [hfirst, connectStages_eq] at h
    cases h
    rfl

/-! ## Standing in for a reader -/

variable {config : Config} {extractor : Extractor} {port : Port} {progress : Progress}
  {system : System World StandardStage StandardReader}

/-- A slot whose only port feeds the filter. -/
structure Feeds (port : Port) (slot : Slot StandardStage StandardReader) : Prop where
  ports : slot.ports = [port]
  subscribers : slot.subscribersAt port.name = [⟨⟨1⟩, TimestampFilter.input⟩]

theorem feeds_frontOf (reader : StandardReader) : Feeds port (frontOf reader port) where
  ports := rfl
  subscribers := by
    rw [frontOf, Slot.subscribersAt_subscribe, if_pos rfl]
    simp [Slot.subscribersAt]

/-- Apart from its reader, the system is an analysis of records in memory that has come so far. -/
def Stands (config : Config) (extractor : Extractor) (port : Port) (progress : Progress)
    (system : System World StandardStage StandardReader) : Prop :=
  ∃ memory front, Shows config extractor progress memory ∧ Feeds port front
    ∧ System.Twins front (connectionFrom port :: connections.tail) memory system

theorem Stands.types (h : Stands config extractor port progress system) :
    system.world.models.types = progress.types := by
  obtain ⟨memory, front, hshows, -, htwins⟩ := h
  rw [htwins.world, hshows.types]

theorem Stands.execution (h : Stands config extractor port progress system) :
    system.world.models.execution = progress.execution := by
  obtain ⟨memory, front, hshows, -, htwins⟩ := h
  rw [htwins.world, hshows.execution]

/-- The system has come further by some records. -/
def Reads (config : Config) (extractor : Extractor) (port : Port) (progress : Progress)
    (system : System World StandardStage StandardReader) : Prop :=
  ∃ records, Stands config extractor port
    (progress.observe extractor (executionsIn config.window records)) system

theorem Stands.reads (h : Stands config extractor port progress system) :
    Reads config extractor port progress system :=
  ⟨[], h⟩

theorem Reads.trans {between : Progress} {records : List Record}
    (hbetween : between = progress.observe extractor (executionsIn config.window records))
    (h : Reads config extractor port between system) :
    Reads config extractor port progress system := by
  obtain ⟨more, hmore⟩ := h
  refine ⟨records ++ more, ?_⟩
  rwa [executionsIn_append, Progress.observe_append, ← hbetween]

theorem exists_record_of_accepts {event : Event} (h : entrance.accepts event.type) :
    ∃ record, event = .record record := by
  cases event with
  | record record => exact ⟨record, rfl⟩
  | trace => exact absurd (show entrance.accepts .executionTrace from h) (by decide)
  | call => exact absurd (show entrance.accepts .operationCall from h) (by decide)
  | dataflow => exact absurd (show entrance.accepts .dataflow from h) (by decide)

/-- What the reader gives out reaches the analysis if it is a record and goes nowhere otherwise. -/
theorem Stands.emit (hfits : port.canConnectTo entrance)
    (h : Stands config extractor port progress system) (output : String) (event : Event) :
    Reads config extractor port progress
      (System.emitFrom [⟨0⟩] ⟨0⟩ output event system).2 := by
  obtain ⟨memory, front, hshows, hfeeds, htwins⟩ := h
  have hslot : system.pipeline.slot? ⟨0⟩ = some front := by
    rw [htwins.pipeline]
    rfl
  have hsize : system.pipeline.size = 5 := by
    rw [htwins.size, hshows.pipeline]
    rfl
  rw [System.emitFrom, hsize, System.broadcast]
  split
  · next found hfound =>
    obtain ⟨hport, haccepts⟩ := Option.filter_eq_some_iff.mp hfound
    rw [output?, hslot] at hport
    obtain rfl : found = port := by
      have hmem := (Port.find?_eq_some hport).1
      rw [hfeeds.ports] at hmem
      exact List.mem_singleton.mp hmem
    obtain ⟨record, rfl⟩ := exists_record_of_accepts
      (Port.accepts_of_canConnectTo hfits haccepts)
    rw [subscribers, hslot, Option.elim_some, hfeeds.subscribers]
    refine ⟨[record], _, front, (hshows.note _).deliver_filter ?_ record, hfeeds,
      (htwins.note (.emitted ⟨0⟩ output (.record record) true) _).deliver _ _ _ _ _⟩
    intro id hid
    simpa using Nat.ne_of_gt hid
  · exact Stands.reads ⟨_, front, hshows.note _, hfeeds,
      htwins.note (.emitted ⟨0⟩ output event false) _⟩

/-- **At each pause and at the end of a reader's callback** the system is an analysis of records in
memory. -/
theorem Stands.perform {α : Type} (hfits : port.canConnectTo entrance)
    {callback : Callback World α} (hspares : callback.Spares World.models)
    (h : Stands config extractor port progress system) :
    (∀ pause ∈ callback.pauses (·.world) (fun world system => { system with world })
        (System.emitFrom [⟨0⟩] ⟨0⟩) system, Reads config extractor port progress pause)
      ∧ Reads config extractor port progress
        (system.perform callback (System.emitFrom [⟨0⟩] ⟨0⟩)).2 := by
  unfold System.perform
  induction callback generalizing progress system with
  | done result => exact ⟨by simp [Callback.pauses], h.reads⟩
  | emit output event next ih =>
    obtain ⟨records, hafter⟩ := h.emit hfits output event
    obtain ⟨hpauses, hend⟩ :=
      ih (System.emitFrom [⟨0⟩] ⟨0⟩ output event system).1 (hspares _) hafter
    refine ⟨?_, hend.trans rfl⟩
    intro pause hpause
    rcases List.mem_cons.mp hpause with rfl | hlater
    · exact ⟨records, hafter⟩
    · exact (hpauses pause hlater).trans rfl
  | update change next ih =>
    obtain ⟨memory, front, hshows, hfeeds, htwins⟩ := h
    refine ih hspares.2 ⟨_, front, ?_, hfeeds, htwins.setWorld (change system.world)⟩
    refine ⟨hshows.pipeline, ?_, ?_⟩
    · show (change system.world).models.types = _
      rw [hspares.1, htwins.world, hshows.types]
    · show (change system.world).models.execution = _
      rw [hspares.1, htwins.world, hshows.execution]
  | observe next ih => exact ih system.world (hspares _) h

/-! ## Runs -/

theorem Stands.modifyFront (h : Stands config extractor port progress system)
    {f : Slot StandardStage StandardReader → Slot StandardStage StandardReader}
    (hf : ∀ slot, Feeds port slot → slot.isReader → Feeds port (f slot) ∧ (f slot).isReader) :
    Stands config extractor port progress
      { system with pipeline := system.pipeline.modifySlot ⟨0⟩ f } := by
  obtain ⟨memory, front, hshows, hfeeds, htwins⟩ := h
  obtain ⟨hfeeds', hreader⟩ := hf front hfeeds htwins.front
  exact ⟨memory, f front, hshows, hfeeds', htwins.modifyFront hreader⟩

/-- The reader is put back and may be unusable from then on. -/
theorem Stands.callBack (hfits : port.canConnectTo entrance) {occasion : Occasion}
    {callback : Surroundings → Callback World (Ending × StandardReader)}
    (hspares : ∀ surroundings, (callback surroundings).Spares World.models)
    (h : Stands config extractor port progress system) :
    (∀ pause ∈ system.callBackPauses ⟨0⟩ occasion callback,
        Reads config extractor port progress pause)
      ∧ Reads config extractor port progress
        (system.callBack ⟨0⟩ occasion callback .reader).2 := by
  have hnoted : Stands config extractor port progress
      (system.note (.called { stage := ⟨0⟩, occasion, held := [] })) := by
    obtain ⟨memory, front, hshows, hfeeds, htwins⟩ := h
    exact ⟨_, front, hshows.note _, hfeeds, htwins.note
      (.called { stage := ⟨0⟩, occasion, held := [] }) _⟩
  obtain ⟨hpauses, records, hend⟩ := hnoted.perform hfits
    (hspares ((system.note (.called { stage := ⟨0⟩, occasion, held := [] })).surroundings ⟨0⟩))
  refine ⟨hpauses, records, ?_⟩
  unfold System.callBack
  dsimp only
  generalize System.perform _ _ _ = result at hend ⊢
  obtain ⟨⟨ending, reader⟩, after⟩ := result
  have hput : Stands config extractor port _ (after.setMember ⟨0⟩ (.reader reader)) :=
    hend.modifyFront fun slot hfeeds _ => ⟨⟨hfeeds.ports, hfeeds.subscribers⟩, rfl⟩
  cases ending with
  | returned | failed => exact hput
  | panicked =>
    exact hput.modifyFront fun slot hfeeds hreader => ⟨⟨hfeeds.ports, hfeeds.subscribers⟩, hreader⟩

theorem Stands.runReader (hfits : port.canConnectTo entrance)
    (h : Stands config extractor port progress system) :
    (∀ pause ∈ system.readerPauses ⟨0⟩, Reads config extractor port progress pause)
      ∧ Reads config extractor port progress (system.runReader ⟨0⟩).2 := by
  obtain ⟨slot, hslot, hreader⟩ :
      ∃ slot, system.pipeline.slot? ⟨0⟩ = some slot ∧ slot.isReader := by
    obtain ⟨memory, front, -, -, htwins⟩ := h
    exact ⟨front, by rw [htwins.pipeline]; rfl, htwins.front⟩
  rw [System.readerPauses, System.runReader, hslot]
  obtain ⟨_, _, member, isPoisoned, _⟩ := slot
  cases member with
  | stage => cases hreader
  | reader reader =>
    cases isPoisoned with
    | true => exact ⟨by simp, h.reads⟩
    | false =>
      obtain ⟨hpauses, hend⟩ := h.callBack hfits fun surroundings =>
        reader.read_spares_models surroundings
      refine ⟨hpauses, ?_⟩
      dsimp only
      generalize system.callBack ⟨0⟩ .read (Reader.read · reader) .reader = result at hend ⊢
      obtain ⟨ending, after⟩ := result
      cases ending <;> exact hend

theorem Stands.order_eq (h : Stands config extractor port progress system) :
    system.pipeline.order = (progress.pipeline config extractor).order := by
  obtain ⟨memory, front, hshows, hfeeds, htwins⟩ := h
  rw [htwins.pipeline, hshows.pipeline]
  rfl

/-- A pipeline that has not been started starts and sends its reader out. -/
theorem Stands.start (h : Stands config extractor port progress system)
    (hstarted : progress.frame.isStarted = false) :
    ∃ next, system.start = (.done, next) ∧ Stands config extractor port
      (progress.setFlags ({ · with isStarted := true, running := [⟨0⟩] })) next := by
  have horder := h.order_eq
  obtain ⟨memory, front, hshows, hfeeds, htwins⟩ := h
  obtain ⟨started, hmemory, hafter⟩ := hshows.start hstarted
  obtain ⟨hreply, hstart⟩ := htwins.start (by rw [horder, hshows.pipeline])
  rw [hmemory] at hreply hstart
  exact ⟨system.start.2, Prod.ext hreply rfl, started, front, hafter, hfeeds, hstart⟩

theorem Stands.terminate (h : Stands config extractor port progress system)
    (hopen : progress.frame.isClosed = false) :
    ∃ next, system.terminate = (.done, next) ∧ Stands config extractor port
      ((progress.advance extractor (·.close)).setFlags
        ({ · with isTerminated := true, isClosed := true })) next := by
  have horder := h.order_eq
  obtain ⟨memory, front, hshows, hfeeds, htwins⟩ := h
  obtain ⟨ended, hmemory, hafter⟩ := hshows.terminate hopen
  obtain ⟨hreply, hend⟩ := htwins.terminate (fun _ _ => rfl) (by rw [horder, hshows.pipeline])
  rw [hmemory] at hreply hend
  exact ⟨system.terminate.2, Prod.ext hreply rfl, ended, front, hafter, hfeeds, hend⟩

theorem Stands.join (hfits : port.canConnectTo entrance)
    (h : Stands config extractor port progress system)
    (hrunning : progress.frame.running = [⟨0⟩]) :
    let waiting := { system with pipeline := { system.pipeline with running := [] } }
    (∀ pause ∈ System.joinPauses system.pipeline.running waiting,
        Reads config extractor port (progress.setFlags ({ · with running := [] })) pause)
      ∧ Reads config extractor port (progress.setFlags ({ · with running := [] }))
        system.join.2 := by
  intro waiting
  have hwaiting : Stands config extractor port (progress.setFlags ({ · with running := [] }))
      waiting := by
    obtain ⟨memory, front, hshows, hfeeds, htwins⟩ := h
    exact ⟨{ memory with pipeline := { memory.pipeline with running := [] } }, front,
      ⟨by rw [hshows.pipeline]; rfl, hshows.types, hshows.execution⟩, hfeeds,
      ⟨congrArg ({ · with running := [] }) htwins.pipeline, htwins.world, htwins.reader,
        htwins.front⟩⟩
  have hreaders : system.pipeline.running = [⟨0⟩] := by
    obtain ⟨memory, front, hshows, -, htwins⟩ := h
    rw [htwins.pipeline, ← hrunning]
    show memory.pipeline.running = _
    rw [hshows.pipeline]
    rfl
  obtain ⟨hpauses, hend⟩ := hwaiting.runReader hfits
  rw [System.join, hreaders]
  exact ⟨by simpa [System.joinPauses] using hpauses, hend⟩

/-- **A run behind any reader goes as a run behind records in memory.** The models are at each pause
those of an analysis of some records, and in the end those of an analysis that is finished. -/
theorem Stands.run (hfits : port.canConnectTo entrance)
    (h : Stands config extractor port progress system) (hstarted : progress.frame.isStarted = false)
    (hopen : progress.frame.isClosed = false) :
    (∀ pause ∈ system.runPauses, ∃ records,
        let reached := progress.observe extractor (executionsIn config.window records)
        pause.world.models.types = reached.types
          ∧ pause.world.models.execution = reached.execution)
      ∧ ∃ records,
        let reached := (progress.observe extractor (executionsIn config.window records)).advance
          extractor (·.close)
        system.run.2.world.models.types = reached.types
          ∧ system.run.2.world.models.execution = reached.execution := by
  obtain ⟨started, hstart, hbegun⟩ := h.start hstarted
  obtain ⟨hpauses, records, hjoined⟩ := hbegun.join hfits rfl
  obtain ⟨ended, hend, hended⟩ := hjoined.terminate hopen
  refine ⟨?_, records, ?_⟩
  · rw [System.runPauses, hstart]
    intro pause hpause
    obtain ⟨records, hreached⟩ := hpauses pause hpause
    exact ⟨records, hreached.types, hreached.execution⟩
  · have hrun : system.run.2 = ended := by
      rw [System.run, hstart]
      dsimp only
      rw [hend]
    rw [hrun]
    exact ⟨hended.types, hended.execution⟩

/-- A run behind records in memory pauses once for each of them. -/
theorem length_runPauses (config : Config) (extractor : Extractor) (records : List Record)
    (world : World) :
    ({ pipeline := pipelineBehind config extractor (.memory { records }), world } :
      System World StandardStage StandardReader).runPauses.length = records.length := by
  let progress : Progress :=
    { unread := records
      reconstruction := .ofConfig config.reconstruction
      types := world.models.types
      execution := world.models.execution }
  have hbegin : Shows config extractor progress
      { pipeline := pipelineBehind config extractor (.memory { records }), world } :=
    ⟨rfl, rfl, rfl⟩
  obtain ⟨started, hstart, hshows⟩ := hbegin.start rfl
  rw [System.runPauses, hstart]
  dsimp only
  rw [hshows.pipeline]
  show (System.readerPauses _ ⟨0⟩ ++ []).length = _
  rw [List.append_nil]
  show (Callback.pauses _ _ _ ((Callback.sendAll
      (records.map fun record => (MemoryReader.output, Event.record record))
    >>= fun _ => pure (Ending.returned, ({ records := [] } : MemoryReader)))
    >>= fun (ending, reader) => pure (ending, StandardReader.memory reader)) _).length = _
  rw [Callback.pauses_bind, Callback.pauses_bind, List.length_append, List.length_append,
    Callback.length_pauses_sendAll, List.length_map]
  rfl

end Analysis

end CallTrace
