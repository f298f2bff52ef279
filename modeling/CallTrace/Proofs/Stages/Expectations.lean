import CallTrace.Proofs.Pipeline.Ghost
import CallTrace.Proofs.Pipeline.Typing
import CallTrace.Stages

/-!
# Standard stages get the events they expect

A standard stage fails with an unexpected event if it is called at the wrong port or with an event
that it has no use for. As its ports declare just the events that it has a use for
(`StandardStage.onEvent_all`), that happens in no pipeline, whatever the other stages and the
readers are and do (`port_typing_is_sound`).
-/

namespace CallTrace

open Pipeline

variable {α σ τ U V π ρ : Type}

/-! ## Unexpected events -/

/-- Whether a handler has failed because it had no use for the event. -/
def Pipeline.Ending.isUnexpected : Ending → Bool
  | .failed (.unexpectedEvent ..) => true
  | _ => false

section Events

variable {port : Port} {event : Event} {type declared : EventType}

theorem accepts_iff_of_types_eq (htypes : port.types = [declared]) :
    port.accepts type ↔ declared ∈ type.lineage := by
  simp [Port.accepts_iff, htypes, EventType.isAssignableFrom]

theorem isRecord_of_accepts (htypes : port.types = [.monitoringRecord])
    (h : port.accepts event.type) : ∃ record, event = .record record := by
  rw [accepts_iff_of_types_eq htypes] at h
  cases event with
  | record record => exact ⟨record, rfl⟩
  | trace | call | dataflow => simp [Event.type, EventType.lineage, EventType.parent] at h

theorem isCall_of_accepts (htypes : port.types = [.operationCall])
    (h : port.accepts event.type) : ∃ call, event = .call call := by
  rw [accepts_iff_of_types_eq htypes] at h
  cases event with
  | call call => exact ⟨call, rfl⟩
  | record record => cases record <;> simp [Event.type, EventType.lineage, EventType.parent] at h
  | trace | dataflow => simp [Event.type, EventType.lineage, EventType.parent] at h

theorem isDataflow_of_accepts (htypes : port.types = [.dataflow])
    (h : port.accepts event.type) : ∃ dataflow, event = .dataflow dataflow := by
  rw [accepts_iff_of_types_eq htypes] at h
  cases event with
  | dataflow dataflow => exact ⟨dataflow, rfl⟩
  | record record => cases record <;> simp [Event.type, EventType.lineage, EventType.parent] at h
  | trace | call => simp [Event.type, EventType.lineage, EventType.parent] at h

end Events

/-! ## Stages of several kinds -/

/-- A callback of a stage that is one of several kinds. -/
def Pipeline.Callback.tagged (tag : σ → τ) (callback : Callback V (Ending × σ)) :
    Callback V (Ending × τ) := do
  let (ending, stage) ← callback
  return (ending, tag stage)

theorem Pipeline.Callback.All.tagged {tag : σ → τ} {callback : Callback V (Ending × σ)}
    {P : Ending × σ → Prop} {Q : Ending × τ → Prop} (h : callback.All P)
    (htag : ∀ result, P result → Q (result.1, tag result.2)) : (callback.tagged tag).All Q :=
  h.bind htag

/-! ## The standard stages -/

section Handlers

variable {input : String} {port : Port} {event : Event}

theorem sendAll_all (events : List (String × Event)) {P : Unit → Prop} (h : P ()) :
    (Callback.sendAll events : Callback V Unit).All P := by
  induction events with
  | nil => exact h
  | cons event events ih => exact fun _ => ih

theorem TimestampFilter.onEvent_all (filter : TimestampFilter)
    (hport : Port.find? TimestampFilter.ports input .input = some port)
    (haccepts : port.accepts event.type) :
    (filter.onEvent input event).All fun result => ¬ result.1.isUnexpected := by
  obtain ⟨hmem, -, hdirection⟩ := Port.find?_eq_some hport
  have htypes : port.types = [.monitoringRecord] := by
    simp only [TimestampFilter.ports, List.mem_cons, List.not_mem_nil, or_false] at hmem
    rcases hmem with rfl | rfl | rfl
    · rfl
    · cases hdirection
    · cases hdirection
  obtain ⟨record, rfl⟩ := isRecord_of_accepts htypes haccepts
  intro accepted
  exact Bool.false_ne_true

theorem TraceReconstruction.onEvent_all (stage : TraceReconstruction)
    (hport : Port.find? TraceReconstruction.ports input .input = some port)
    (haccepts : port.accepts event.type) :
    (stage.onEvent input event).All fun result => ¬ result.1.isUnexpected := by
  obtain ⟨hmem, -, hdirection⟩ := Port.find?_eq_some hport
  have htypes : port.types = [.monitoringRecord] := by
    simp only [TraceReconstruction.ports, List.mem_cons, List.not_mem_nil, or_false] at hmem
    rcases hmem with rfl | rfl | rfl | rfl
    · rfl
    · cases hdirection
    · cases hdirection
    · cases hdirection
  obtain ⟨record, rfl⟩ := isRecord_of_accepts htypes haccepts
  cases record with
  | branching b => exact Bool.false_ne_true
  | execution e =>
    refine (sendAll_all _ trivial).bind (P := fun _ => True) ?_
    intro _ _
    exact Bool.false_ne_true

theorem TypeAssembler.onEvent_all (stage : TypeAssembler)
    (hport : Port.find? TypeAssembler.ports input .input = some port)
    (haccepts : port.accepts event.type) :
    (stage.onEvent input event).All fun result => ¬ result.1.isUnexpected := by
  obtain ⟨hmem, -, hdirection⟩ := Port.find?_eq_some hport
  have htypes : port.types = TypeAssembler.types := by
    simp only [TypeAssembler.ports, List.mem_cons, List.not_mem_nil, or_false] at hmem
    rcases hmem with rfl | rfl
    · rfl
    · cases hdirection
  cases event with
  | record | trace | call =>
    intro accepted
    exact Bool.false_ne_true
  | dataflow =>
    -- the only kind of event without a case in the handler is the only one that no port declares
    simp [Port.accepts_iff, htypes, TypeAssembler.types, EventType.isAssignableFrom, Event.type,
      EventType.lineage, EventType.parent] at haccepts

theorem ExecutionAssembler.onEvent_all (stage : ExecutionAssembler)
    (hport : Port.find? ExecutionAssembler.ports input .input = some port)
    (haccepts : port.accepts event.type) :
    (stage.onEvent input event).All fun result => ¬ result.1.isUnexpected := by
  obtain ⟨hmem, hname, -⟩ := Port.find?_eq_some hport
  simp only [ExecutionAssembler.ports, List.mem_cons, List.not_mem_nil, or_false] at hmem
  unfold ExecutionAssembler.onEvent
  -- the name of the port decides which kind of event it takes
  rcases hmem with rfl | rfl
  · obtain ⟨call, rfl⟩ := isCall_of_accepts rfl haccepts
    have hinput : input = ExecutionAssembler.calls := hname.symm
    dsimp only
    rw [if_pos hinput]
    exact Bool.false_ne_true
  · obtain ⟨flow, rfl⟩ := isDataflow_of_accepts rfl haccepts
    have hinput : input = ExecutionAssembler.dataflows := hname.symm
    dsimp only
    rw [if_pos hinput]
    exact Bool.false_ne_true

theorem QueueSink.onEvent_all (sink : QueueSink) :
    (sink.onEvent event).All fun result => ¬ result.1.isUnexpected := by
  unfold QueueSink.onEvent
  split
  · exact Bool.false_ne_true
  · intro world
    show Callback.All _ (if _ then _ else _)
    split
    · exact Bool.false_ne_true
    · exact Bool.false_ne_true

end Handlers

namespace StandardStage

/-- A callback leaves a standard stage with its ports and has not failed for want of a use. -/
def IsInLine (ports : List Port) (result : Ending × StandardStage) : Prop :=
  result.2.ports = ports ∧ ¬ result.1.isUnexpected

/-- **A standard stage has a use for every event that its ports declare.** -/
theorem onEvent_all (stage : StandardStage) {input : String} {port : Port} {event : Event}
    (hport : Port.find? stage.ports input .input = some port)
    (haccepts : port.accepts event.type) :
    (stage.onEvent input event).All (IsInLine stage.ports) := by
  cases stage with
  | filter stage => exact (stage.onEvent_all hport haccepts).tagged fun _ h => ⟨rfl, h⟩
  | reconstruction stage => exact (stage.onEvent_all hport haccepts).tagged fun _ h => ⟨rfl, h⟩
  | types stage => exact (stage.onEvent_all hport haccepts).tagged fun _ h => ⟨rfl, h⟩
  | execution stage => exact (stage.onEvent_all hport haccepts).tagged fun _ h => ⟨rfl, h⟩
  | queueSink stage => exact stage.onEvent_all.tagged fun _ h => ⟨rfl, h⟩
  | collector stage => exact ⟨rfl, Bool.false_ne_true⟩

theorem onTerminate_all (stage : StandardStage) : stage.onTerminate.All (IsInLine stage.ports) := by
  cases stage with
  | filter | types | execution | collector => exact ⟨rfl, Bool.false_ne_true⟩
  | queueSink sink => exact ⟨rfl, Bool.false_ne_true⟩
  | reconstruction stage =>
    have hsent : stage.onTerminate.All fun result => ¬ result.1.isUnexpected := by
      refine (sendAll_all _ trivial).bind (P := fun _ => True) ?_
      intro _ _
      exact Bool.false_ne_true
    exact hsent.tagged fun _ h => ⟨rfl, h⟩

theorem ports_onSetting (key : String) (value : Setting) (stage : StandardStage) :
    (stage.onSetting key value).2.ports = stage.ports := by
  unfold onSetting
  cases stage with
  | filter filter =>
    rw [configure]
    cases filter.configure key value <;> rfl
  | reconstruction reconstruction =>
    rw [configure]
    cases reconstruction.configure key value <;> rfl
  | types | execution | queueSink | collector => rfl

end StandardStage

/-! ## Pipelines with standard stages -/

section Pipelines

/-- A standard stage's callback, in a world with more to it than standard stages use. -/
def StandardStage.beside (U π : Type) (callback : Callback World (Ending × StandardStage)) :
    Callback (World × U) (Ending × (StandardStage ⊕ π)) :=
  (callback.within Prod.fst fun world shared => (world, shared.2)).tagged .inl

/-- Standard stages next to any others. -/
instance besideStandard [Stage (World × U) π] : Stage (World × U) (StandardStage ⊕ π) where
  name := Sum.elim StandardStage.name Stage.name
  ports := Sum.elim StandardStage.ports Stage.ports
  onStart surroundings
    | .inl stage => return (.returned, .inl stage)
    | .inr stage => (Stage.onStart surroundings stage).tagged .inr
  onEvent surroundings input event
    | .inl stage => StandardStage.beside U π (stage.onEvent input event)
    | .inr stage => (Stage.onEvent surroundings input event stage).tagged .inr
  onTerminate surroundings
    | .inl stage => StandardStage.beside U π stage.onTerminate
    | .inr stage => (Stage.onTerminate surroundings stage).tagged .inr
  onSetting key value
    | .inl stage, world => ((stage.onSetting key value).map id .inl, world)
    | .inr stage, world => (Stage.onSetting key value stage world).map (.map id .inr) id

/-- Standard stages are what their ports say. -/
def KeepPorts (π : Type) (ports : List Port) (stage : StandardStage ⊕ π) : Prop :=
  ∀ standard, stage = .inl standard → standard.ports = ports

/-- The callback was not one of a standard stage that failed for want of a use. -/
def IsExpected (handling : Handling (StandardStage ⊕ π)) : Prop :=
  ∀ standard, handling.stage = .inl standard → ¬ handling.ending.isUnexpected

theorem Pipeline.Callback.All.keeps_unwatched {callback : Callback V α} {P : α → Prop}
    {Q : List (Handling σ) → Prop} (h : callback.All P) :
    (callback.unwatched σ).Keeps (fun watched => Q watched.2) P := by
  refine h.keeps_within ?_
  intro v watched hwatched
  exact hwatched

/-- What is noted of a watched callback is so if all its results are. -/
theorem Pipeline.Callback.All.keeps_watched {stage : σ} {occasion : Occasion}
    {callback : Callback V (Ending × σ)} {P : Ending × σ → Prop} {Q : Handling σ → Prop}
    (h : callback.All P) (hnote : ∀ result, P result → Q ⟨stage, occasion, result.1⟩) :
    (callback.watched stage occasion).Keeps (fun watched => ∀ handling ∈ watched.2, Q handling)
      P := by
  refine (h.keeps_unwatched (Q := fun notes => ∀ handling ∈ notes, Q handling)).bind ?_
  intro result hresult
  constructor
  · intro watched hwatched
    exact List.forall_mem_cons.mpr ⟨hnote result hresult, hwatched⟩
  · exact hresult

variable [Stage (World × U) π] [Reader (World × U) ρ]

/-- What comes out of a stage's callback, as far as standard stages are concerned. -/
def IsSound (ports : List Port) (stage : StandardStage ⊕ π) (occasion : Occasion)
    (result : Ending × (StandardStage ⊕ π)) : Prop :=
  KeepPorts π ports result.2 ∧ IsExpected ⟨stage, occasion, result.1⟩

omit [Stage (World × U) π] [Reader (World × U) ρ] in
/-- Other stages do as they please. -/
theorem others_all (callback : Callback (World × U) (Ending × π)) (ports : List Port) (stage : π)
    (occasion : Occasion) : (callback.tagged .inr).All (IsSound ports (.inr stage) occasion) :=
  callback.all_true.tagged fun _ _ => ⟨nofun, nofun⟩

omit [Stage (World × U) π] [Reader (World × U) ρ] in
theorem StandardStage.beside_all {callback : Callback World (Ending × StandardStage)}
    {stage : StandardStage} (h : callback.All (IsInLine stage.ports)) (occasion : Occasion) :
    (StandardStage.beside U π callback).All (IsSound stage.ports (.inl stage) occasion) := by
  refine h.within.tagged ?_
  rintro result ⟨hports, hexpected⟩
  constructor
  · rintro _ ⟨⟩
    exact hports
  · rintro _ ⟨⟩
    exact hexpected

omit [Stage (World × U) π] [Reader (World × U) ρ] in
theorem keeps_watched_of_all {callback : Callback (World × U) (Ending × (StandardStage ⊕ π))}
    {ports : List Port} {stage : StandardStage ⊕ π} {occasion : Occasion}
    (h : callback.All (IsSound ports stage occasion)) :
    (callback.watched stage occasion).Keeps (fun watched => ∀ handling ∈ watched.2,
      IsExpected handling) fun result => KeepPorts π ports result.2 :=
  (h.keeps_watched fun _ hresult => hresult.2).mono fun _ hresult => hresult.1

/-- All callbacks so far were ones of others or as expected. -/
def AllExpected (watched : Watched V (StandardStage ⊕ π)) : Prop :=
  ∀ handling ∈ watched.2, IsExpected handling

theorem relyOnPorts_of_watched :
    @RelyOnPorts _ (StandardStage ⊕ π) AllExpected (KeepPorts π) ρ
      (watchingStage (besideStandard (U := U))) (watchingReader _ inferInstance) := by
  refine @RelyOnPorts.mk _ _ _ _ _ (watchingStage besideStandard) (watchingReader _ inferInstance)
    ?added ?onStart ?onEvent ?onTerminate ?onSetting ?read ?readerOnTerminate
  case added =>
    rintro _ standard rfl
    rfl
  case onStart =>
    intro surroundings ports stage hports
    refine keeps_watched_of_all ?_
    cases stage with
    | inl stage => exact ⟨hports, fun _ _ => Bool.false_ne_true⟩
    | inr stage => exact others_all _ ports stage .start
  case onEvent =>
    intro surroundings ports stage input port event hports hport haccepts
    refine keeps_watched_of_all ?_
    cases stage with
    | inl stage =>
      obtain rfl := hports stage rfl
      exact StandardStage.beside_all (stage.onEvent_all hport haccepts) (.event input event)
    | inr stage => exact others_all _ ports stage (.event input event)
  case onTerminate =>
    intro surroundings ports stage hports
    refine keeps_watched_of_all ?_
    cases stage with
    | inl stage =>
      obtain rfl := hports stage rfl
      exact StandardStage.beside_all stage.onTerminate_all .terminate
    | inr stage => exact others_all _ ports stage .terminate
  case onSetting =>
    intro key value ports stage watched hports hwatched
    refine ⟨?_, hwatched⟩
    cases stage with
    | inl stage =>
      rintro _ ⟨⟩
      exact (stage.ports_onSetting key value).trans (hports stage rfl)
    | inr stage => rintro _ ⟨⟩
  case read =>
    intro surroundings reader
    exact (Callback.all_true _).keeps_unwatched (Q := fun notes => ∀ note ∈ notes, IsExpected note)
  case readerOnTerminate =>
    intro surroundings reader
    exact (Callback.all_true _).keeps_unwatched (Q := fun notes => ∀ note ∈ notes, IsExpected note)

/-- **The types of ports can be relied on.** Whatever stages and readers a pipeline is made of, with
standard stages among them, and whatever is asked of it: each event that a stage is called with is
one that its input port declares, and no standard stage ever fails for want of a use for an
event. -/
theorem port_typing_is_sound (world : World × U)
    (commands : List (Command (StandardStage ⊕ π) ρ)) :
    (∀ a input event, .called a ∈ (System.executeAll commands (.empty world)).2.journal →
      a.occasion = .event input event →
      ∃ port, (System.executeAll commands (.empty world)).2.pipeline.input? a.stage input
          = some port
        ∧ port.accepts event.type)
    ∧ (System.watch commands world).map id (System.mapWorld Prod.fst)
      = System.executeAll commands (.empty world)
    ∧ ∀ handling ∈ (System.watch commands world).2.world.2, ∀ standard,
      handling.stage = .inl standard → ¬ handling.ending.isUnexpected := by
  have hwatch := System.watch_eq commands world
  have hempty : Typed AllExpected (KeepPorts π)
      (.empty (world, []) : System (Watched (World × U) (StandardStage ⊕ π)) _ ρ) :=
    System.typed_empty fun _ hnone => absurd hnone List.not_mem_nil
  have htyped := @System.executeAll_typed _ _ _ _ _ _ (watchingStage besideStandard)
    (watchingReader _ inferInstance) relyOnPorts_of_watched hempty commands
  refine ⟨?_, hwatch, htyped.world⟩
  rw [← hwatch]
  exact htyped.takes

end Pipelines

end CallTrace
