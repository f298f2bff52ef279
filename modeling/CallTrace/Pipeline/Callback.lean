import CallTrace.Error
import CallTrace.Pipeline.Event

/-!
# Stages and their callbacks

A pipeline calls its stages back: at the start, for every event that arrives at an input port, at
the end, and when a setting changes. A callback may emit events at the stage's own output ports, use
the world that all stages share, and change its stage. It is a tree of such actions, so that it ends
after finitely many whatever the answers are.

`Stage` and `Reader` are what a type has to provide to take part in a pipeline.
-/

namespace CallTrace.Pipeline

/-! ## Callbacks -/

/-- The actions of a callback. -/
inductive Callback (W α : Type) where
  /-- The end of the callback. -/
  | done (result : α)
  /-- An event at an output port. The answer tells whether it was accepted; when it was, all
  subscribers have handled it by then. -/
  | emit (port : String) (event : Event) (next : Bool → Callback W α)
  /-- A change of the world. -/
  | update (change : W → W) (next : Callback W α)
  /-- A look at the world. -/
  | observe (next : W → Callback W α)

namespace Callback

variable {W V α β : Type}

/-- One callback after the other. -/
def bind (callback : Callback W α) (f : α → Callback W β) : Callback W β :=
  match callback with
  | done result => f result
  | emit port event next => emit port event fun accepted => (next accepted).bind f
  | update change next => update change (next.bind f)
  | observe next => observe fun world => (next world).bind f

instance : Monad (Callback W) where
  pure := done
  bind := bind

/-- Emits an event. -/
def send (port : String) (event : Event) : Callback W Bool := emit port event done

/-- Changes the world. -/
def change (f : W → W) : Callback W Unit := update f (done ())

/-- Looks at the world. -/
def world : Callback W W := observe done

/-- Emits events one after the other. -/
def sendAll : List (String × Event) → Callback W Unit
  | [] => done ()
  | (port, event) :: rest => emit port event fun _ => sendAll rest

/-- A callback on a part of a larger world. -/
def within (part : V → W) (replace : W → V → V) : Callback W α → Callback V α
  | done result => done result
  | emit port event next => emit port event fun accepted => (next accepted).within part replace
  | update change next => update (fun v => replace (change (part v)) v) (next.within part replace)
  | observe next => observe fun v => (next (part v)).within part replace

end Callback

/-! ## How a callback ends -/

/-- Why a callback failed. -/
inductive StageFault where
  | unexpectedEvent (port : String) (type : EventType)
  | invalidSetting (key message : String)
  | log (fault : Log.Fault)
  | other (error : Error)
  deriving DecidableEq, Repr

namespace StageFault

/-- The name of the kind of a fault. -/
def kind : StageFault → String
  | unexpectedEvent .. => "UnexpectedEvent"
  | invalidSetting .. => "InvalidConfig"
  | log _ => "Codec"
  | other _ => "Other"

/-- The fault of an event that a port has no use for. -/
def unexpected (port : String) (event : Event) : StageFault := unexpectedEvent port event.type

/-- The wording of a fault. -/
def message : StageFault → String
  | unexpectedEvent port type => s!"Unexpected {type.name} event on port '{port}'"
  | invalidSetting key text => s!"Invalid config '{key}': {text}"
  | log fault => "Record decoding failed: " ++ fault.message
  | other error => error.message

end StageFault

/-- How a callback ends. -/
inductive Ending where
  | returned
  | failed (fault : StageFault)
  | panicked
  deriving DecidableEq, Repr

/-- What a callback knows about its surroundings. -/
structure Surroundings where
  /-- The stage that is called back. -/
  stage : StageId
  /-- Whether the pipeline has asked its stages to stop. -/
  isTerminated : Bool
  deriving DecidableEq, Repr

/-! ## What takes part in a pipeline -/

/-- Stages in a world. Every callback gives the stage as it is afterwards. -/
class Stage (W : outParam Type) (σ : Type) where
  name : σ → String
  ports : σ → List Port
  /-- Called when the pipeline starts, before any reader runs. -/
  onStart : Surroundings → σ → Callback W (Ending × σ) := fun _ stage => pure (.returned, stage)
  /-- Called for each event that arrives at an input port. -/
  onEvent : Surroundings → String → Event → σ → Callback W (Ending × σ)
  /-- Called once when the pipeline terminates. -/
  onTerminate : Surroundings → σ → Callback W (Ending × σ) := fun _ stage => pure (.returned, stage)
  /-- Called when a setting changes. -/
  onSetting : String → Setting → σ → W → (Ending × σ) × W :=
    fun _ _ stage world => ((.returned, stage), world)

/-- Readers in a world: the sources of a pipeline. -/
class Reader (W : outParam Type) (ρ : Type) where
  name : ρ → String
  ports : ρ → List Port
  /-- Emits events until there are no more. -/
  read : Surroundings → ρ → Callback W (Ending × ρ)
  /-- Called once when the pipeline terminates. -/
  onTerminate : Surroundings → ρ → Callback W (Ending × ρ) :=
    fun _ reader => pure (.returned, reader)

end CallTrace.Pipeline
