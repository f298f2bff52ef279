import CallTrace.Pipeline

/-!
# Delivery

An emission runs every subscriber of the output port, one after the other in the order of their
connections, before it is answered. A subscriber that emits in turn is served first, so events go
depth first through the pipeline. How a callback ends makes no difference to the others, nor to
later events.

While a callback runs, its stage is held: an event for a held stage would wait for itself. The
stages held at one time form a chain of connections, which is why a pipeline without cycles never
comes to that and why their number bounds the depth of deliveries.
-/

namespace CallTrace.Pipeline

/-- Which callback of a stage or reader was called. -/
inductive Occasion where
  | start
  | event (input : String) (event : Event)
  | read
  | terminate
  deriving DecidableEq, Repr

/-- A callback that was called. -/
structure Activation where
  stage : StageId
  occasion : Occasion
  /-- The stages that were held when it was called, the innermost one first. -/
  held : List StageId
  deriving DecidableEq, Repr

/-- What is written down of a pipeline at work. -/
inductive Entry where
  /-- A callback was called. -/
  | called (activation : Activation)
  /-- An event was given out at an output port, which accepted it or not. -/
  | emitted (source : StageId) (output : String) (event : Event) (accepted : Bool)
  deriving DecidableEq, Repr

/-- A pipeline at work. -/
structure System (W σ ρ : Type) where
  pipeline : Pipeline σ ρ
  /-- What all stages share. -/
  world : W
  /-- The callbacks called and the events given out so far, the latest ones first. -/
  journal : List Entry := []
  /-- Whether a delivery waits for a stage that cannot become free. -/
  isStuck : Bool := false

namespace Callback

variable {W α S : Type}

/-- Runs a callback. `emit` is what an emission does to the state, in which `get` and `set` find the
world. -/
def run (get : S → W) (set : W → S → S) (emit : String → Event → S → Bool × S) :
    Callback W α → S → α × S
  | done result, state => (result, state)
  | Callback.emit port event next, state =>
    let (accepted, state) := emit port event state
    (next accepted).run get set emit state
  | update change next, state => next.run get set emit (set (change (get state)) state)
  | observe next, state => (next (get state)).run get set emit state

end Callback

namespace System

variable {W σ ρ α : Type}

/-- Writes an entry down. -/
def note (system : System W σ ρ) (entry : Entry) : System W σ ρ :=
  { system with journal := entry :: system.journal }

/-- What a callback of a stage is told. -/
def surroundings (system : System W σ ρ) (stage : StageId) : Surroundings :=
  { stage, isTerminated := system.pipeline.isTerminated }

/-- Puts a member back into its slot. -/
def setMember (system : System W σ ρ) (id : StageId) (member : Member σ ρ) : System W σ ρ :=
  { system with pipeline := system.pipeline.modifySlot id fun slot => { slot with member } }

/-- Makes a slot unusable. -/
def poison (system : System W σ ρ) (id : StageId) : System W σ ρ :=
  { system with
    pipeline := system.pipeline.modifySlot id fun slot => { slot with isPoisoned := true } }

/-- Runs a callback whose emissions go to `emit`. -/
def perform (system : System W σ ρ) (callback : Callback W α)
    (emit : String → Event → System W σ ρ → Bool × System W σ ρ) : α × System W σ ρ :=
  callback.run (·.world) (fun world system => { system with world }) emit system

/-- Gives an event out at an output port: hands it to every subscriber if the port is there and
declares the type of the event. -/
def broadcast (deliver : StageId → String → Event → System W σ ρ → System W σ ρ)
    (source : StageId) (output : String) (event : Event) (system : System W σ ρ) :
    Bool × System W σ ρ :=
  match system.pipeline.outputFor? source output event.type with
  | some port =>
    (true, (system.pipeline.subscribers source port.name).foldl
      (fun system s => deliver s.target s.input event system)
      (system.note (.emitted source output event true)))
  | none => (false, system.note (.emitted source output event false))

/-- Delivers an event to an input port while the stages `held` are held. At most `depth` more stages
can be called within each other. A reader and an unusable stage take no events, but whether a stage
is usable shows only when it is free. -/
def deliver [Stage W σ] : (depth : Nat) → (held : List StageId) → (target : StageId) →
    (input : String) → Event → System W σ ρ → System W σ ρ
  | 0, _, _, _, _, system => { system with isStuck := true }
  | depth + 1, held, target, input, event, system =>
    match system.pipeline.slot? target with
    | some { member := .stage stage, isPoisoned, .. } =>
      if held.contains target then { system with isStuck := true }
      else if isPoisoned then system
      else
        let system := system.note
          (.called { stage := target, occasion := .event input event, held })
        let ((_, stage), system) := system.perform
          (Stage.onEvent (system.surroundings target) input event stage)
          (broadcast (deliver depth (target :: held)) target)
        system.setMember target (.stage stage)
    | _ => system

/-- Gives an event out at an output port of a stage while the stages `held` are held. -/
def emitFrom [Stage W σ] (held : List StageId) (source : StageId) (output : String) (event : Event)
    (system : System W σ ρ) : Bool × System W σ ρ :=
  broadcast (deliver system.pipeline.size held) source output event system

/-- Gives an event out at an output port, as if the stage had emitted it. The flag tells whether the
event was accepted. -/
def emit [Stage W σ] (system : System W σ ρ) (source : StageId) (output : String) (event : Event) :
    Bool × System W σ ρ :=
  system.emitFrom [] source output event

/-- Like `emit`, for an event that may be absent; an absent one is not accepted. -/
def emit? [Stage W σ] (system : System W σ ρ) (source : StageId) (output : String)
    (event : Option Event) : Bool × System W σ ρ :=
  match event with
  | some event => system.emit source output event
  | none => (false, system)

/-- Delivers an event straight to an input port. The flag tells whether the port is there and
declares the type of the event. -/
def inject [Stage W σ] (system : System W σ ρ) (target : StageId) (input : String)
    (event : Event) : Bool × System W σ ρ :=
  match system.pipeline.input? target input with
  | none => (false, system)
  | some port =>
    if port.accepts event.type then
      (true, deliver system.pipeline.size [] target port.name event system)
    else (false, system)

end System

end CallTrace.Pipeline
