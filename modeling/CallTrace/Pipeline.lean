import CallTrace.Pipeline.Callback
import CallTrace.Pipeline.Topology
import Std.Data.ExtTreeMap

/-!
# Pipelines

A pipeline owns stages and readers and the connections between their ports. It is put together
before it starts; a connection is made only if both its ports exist, the target is no reader, no
cycle arises and everything that the output gives out may pass the input. A refused step changes
nothing.
-/

namespace CallTrace

namespace Pipeline

/-- What stands in a slot of a pipeline. -/
inductive Member (σ ρ : Type) where
  | stage (stage : σ)
  | reader (reader : ρ)

/-- Where the events of an output port go. -/
structure Subscriber where
  target : StageId
  input : String
  deriving DecidableEq, Repr

namespace Connection

/-- Whether the connection leaves this output port. -/
def leaves (c : Connection) (source : StageId) (output : String) : Bool :=
  c.source = source && c.output = output

/-- The subscriber that the connection makes its target. -/
def subscriber (c : Connection) : Subscriber := { target := c.target, input := c.input }

end Connection

/-- A place in a pipeline. -/
structure Slot (σ ρ : Type) where
  name : String
  /-- The ports as they were when the slot was filled. -/
  ports : List Port
  member : Member σ ρ
  /-- Whether a callback panicked in a way that makes the member unusable. -/
  isPoisoned : Bool := false
  /-- The subscribers of the output ports by the names of the ports, in the order of connecting. -/
  subscribers : Std.ExtTreeMap String (List Subscriber) := ∅

namespace Slot

variable {σ ρ : Type}

/-- Whether the slot holds a reader. -/
def isReader (slot : Slot σ ρ) : Bool :=
  match slot.member with
  | .reader _ => true
  | .stage _ => false

/-- The stage in the slot, if it holds a usable one. -/
def stage? (slot : Slot σ ρ) : Option σ :=
  match slot.member, slot.isPoisoned with
  | .stage stage, false => some stage
  | _, _ => none

/-- The subscribers of an output port. -/
def subscribersAt (slot : Slot σ ρ) (output : String) : List Subscriber :=
  slot.subscribers[output]?.getD []

/-- Adds a subscriber to an output port. -/
def subscribe (slot : Slot σ ρ) (output : String) (subscriber : Subscriber) : Slot σ ρ :=
  { slot with
    subscribers := slot.subscribers.insert output (slot.subscribersAt output ++ [subscriber]) }

theorem subscribersAt_subscribe (slot : Slot σ ρ) (output port : String)
    (subscriber : Subscriber) :
    (slot.subscribe output subscriber).subscribersAt port
      = slot.subscribersAt port ++ if output = port then [subscriber] else [] := by
  simp only [subscribe, subscribersAt, Std.ExtTreeMap.getElem?_insert,
    Std.LawfulEqCmp.compare_eq_iff_eq]
  split
  · next heq => rw [heq, Option.getD_some]
  · rw [List.append_nil]

end Slot

end Pipeline

/-- Stages of type `σ` and readers of type `ρ` with the connections between them. -/
structure Pipeline (σ ρ : Type) where
  slots : List (Pipeline.Slot σ ρ) := []
  /-- The connections in the order in which they were made. -/
  connections : List Pipeline.Connection := []
  isStarted : Bool := false
  /-- Whether the members were asked to stop. -/
  isTerminated : Bool := false
  /-- Whether the members were told that the pipeline terminates. -/
  isClosed : Bool := false
  /-- The readers that were started and not yet waited for. -/
  running : List Pipeline.StageId := []

namespace Pipeline

variable {W σ ρ : Type}

instance : Inhabited (Pipeline σ ρ) := ⟨{}⟩

/-- The slot with an id. -/
def slot? (pipeline : Pipeline σ ρ) (id : StageId) : Option (Slot σ ρ) := pipeline.slots[id.index]?

/-- Changes the slot with an id. -/
def modifySlot (pipeline : Pipeline σ ρ) (id : StageId) (f : Slot σ ρ → Slot σ ρ) :
    Pipeline σ ρ :=
  { pipeline with slots := pipeline.slots.modify id.index f }

/-- How many stages and readers there are. -/
def size (pipeline : Pipeline σ ρ) : Nat := pipeline.slots.length

/-- Whether there are no stages and no readers. -/
def isEmpty (pipeline : Pipeline σ ρ) : Bool := pipeline.slots.isEmpty

/-- The name of a stage or reader. -/
def name? (pipeline : Pipeline σ ρ) (id : StageId) : Option String :=
  (pipeline.slot? id).map (·.name)

/-- The order in which the members are started and terminated. -/
def order (pipeline : Pipeline σ ρ) : List StageId :=
  executionOrder pipeline.size pipeline.connections

/-- The subscribers of an output port, in the order of connecting. -/
def subscribers (pipeline : Pipeline σ ρ) (source : StageId) (output : String) :
    List Subscriber :=
  (pipeline.slot? source).elim [] (·.subscribersAt output)

/-- The output port of a stage or reader. -/
def output? (pipeline : Pipeline σ ρ) (id : StageId) (name : String) : Option Port := do
  Port.find? (← pipeline.slot? id).ports name .output

/-- The input port of a stage or reader. -/
def input? (pipeline : Pipeline σ ρ) (id : StageId) (name : String) : Option Port := do
  Port.find? (← pipeline.slot? id).ports name .input

/-- The output port of a stage or reader, if it gives out events of this type. -/
def outputFor? (pipeline : Pipeline σ ρ) (id : StageId) (name : String) (type : EventType) :
    Option Port :=
  (pipeline.output? id name).filter (·.accepts type)

/-! ## Putting a pipeline together -/

/-- A step of putting a pipeline together: it may be refused, and keeps the pipeline as it was
then. -/
abbrev Step (σ ρ : Type) := ExceptT Refusal (StateM (Pipeline σ ρ))

/-- Fills the next slot. -/
def addSlot (slot : Slot σ ρ) : Step σ ρ StageId := do
  let pipeline ← get
  if pipeline.isStarted then throw .alreadyStarted
  set { pipeline with slots := pipeline.slots ++ [slot] }
  return ⟨pipeline.size⟩

/-- Adds a stage. -/
def addStage [Stage W σ] (stage : σ) : Step σ ρ StageId :=
  addSlot { name := Stage.name stage, ports := Stage.ports stage, member := .stage stage }

/-- Adds a reader. -/
def addReader [Reader W ρ] (reader : ρ) : Step σ ρ StageId :=
  addSlot { name := Reader.name reader, ports := Reader.ports reader, member := .reader reader }

/-- Adds a connection: to the subscribers of its source and to the list of all. -/
def addConnection (pipeline : Pipeline σ ρ) (c : Connection) : Pipeline σ ρ :=
  { pipeline.modifySlot c.source (·.subscribe c.output c.subscriber) with
    connections := pipeline.connections ++ [c] }

/-- The ports that a connection would join, or why there can be none. -/
def joined (pipeline : Pipeline σ ρ) (source : StageId) (output : String) (target : StageId)
    (input : String) : Except Refusal (Port × Port) :=
  if pipeline.isStarted then .error .alreadyStarted
  else
    match pipeline.slot? source, pipeline.slot? target with
    | none, _ => .error (.unknownStage source)
    | some _, none => .error (.unknownStage target)
    | some _, some targetSlot =>
      if targetSlot.isReader then .error (.readerAsTarget target)
      else
        match pipeline.output? source output, pipeline.input? target input with
        | none, _ => .error (.unknownPort source output .output)
        | some _, none => .error (.unknownPort target input .input)
        | some out, some inp =>
          if reaches pipeline.connections target source then .error .cycle
          else if out.canConnectTo inp then .ok (out, inp)
          else .error (.portMismatch out.types inp.types)

/-- Connects an output port to an input port, or says why not. -/
def tryConnect (source : StageId) (output : String) (target : StageId) (input : String) :
    Step σ ρ ConnectionId := do
  let pipeline ← get
  match pipeline.joined source output target input with
  | .error refusal => throw refusal
  | .ok (out, inp) =>
    let id := ⟨pipeline.connections.length⟩
    modify (·.addConnection { id, source, output := out.name, target, input := inp.name })
    return id

/-- Connects an output port to an input port; the flag says whether that was done. -/
def connect (pipeline : Pipeline σ ρ) (source : StageId) (output : String) (target : StageId)
    (input : String) : Bool × Pipeline σ ρ :=
  let (result, pipeline) := (tryConnect source output target input).run pipeline
  (result matches .ok _, pipeline)

end Pipeline

end CallTrace
