/-!
# Ports

The types of the events that flow through a pipeline, and the ports at which stages take them in and
give them out.

```
any
├── monitoring record
│   ├── operation execution
│   └── branching
├── execution trace
├── operation call
└── dataflow
```
-/

namespace CallTrace.Pipeline

/-- The type of an event. -/
inductive EventType where
  | any
  | monitoringRecord
  | operationExecution
  | branching
  | executionTrace
  | operationCall
  | dataflow
  deriving DecidableEq, Repr

namespace EventType

/-- The name of a type. -/
def name : EventType → String
  | any => "Any"
  | monitoringRecord => "MonitoringRecord"
  | operationExecution => "OperationExecution"
  | branching => "Branching"
  | executionTrace => "ExecutionTrace"
  | operationCall => "OperationCall"
  | dataflow => "Dataflow"

/-- The next more general type. -/
def parent : EventType → Option EventType
  | any => none
  | operationExecution | branching => some monitoringRecord
  | monitoringRecord | executionTrace | operationCall | dataflow => some any

/-- The type and all more general ones, from special to general. -/
def lineage (type : EventType) : List EventType :=
  type :: match type.parent with
    | none => []
    | some parent =>
      parent :: match parent.parent with
        | none => []
        | some grandparent => [grandparent]

/-- Whether an event of type `other` may stand where an event of type `type` is expected. -/
def isAssignableFrom (type other : EventType) : Bool := other.lineage.contains type

/-- The text of a list of types. -/
def listText (types : List EventType) : String :=
  "[" ++ ", ".intercalate (types.map name) ++ "]"

end EventType

/-- Whether a port takes events in or gives them out. -/
inductive PortDirection where
  | input
  | output
  deriving DecidableEq, Repr

namespace PortDirection

/-- The name of a direction. -/
def name : PortDirection → String
  | input => "input"
  | output => "output"

end PortDirection

/-- A port of a stage. A port that declares no types takes every event. -/
structure Port where
  name : String
  direction : PortDirection
  types : List EventType
  deriving DecidableEq, Repr

namespace Port

/-- An input port. -/
def input (name : String) (types : List EventType) : Port := { name, direction := .input, types }

/-- An output port. -/
def output (name : String) (types : List EventType) : Port := { name, direction := .output, types }

/-- Whether the port declares no types. -/
def acceptsAny (port : Port) : Bool := port.types.isEmpty

/-- Whether an event of this type may pass the port. -/
def accepts (port : Port) (type : EventType) : Bool :=
  port.acceptsAny || port.types.any (·.isAssignableFrom type)

/-- Whether everything that this output gives out may pass the input. -/
def canConnectTo (output input : Port) : Bool :=
  if input.acceptsAny then true
  else if output.types.isEmpty then input.types.contains .any
  else output.types.all fun out => input.types.any (·.isAssignableFrom out)

/-- The first port with this name and direction. -/
def find? (ports : List Port) (name : String) (direction : PortDirection) : Option Port :=
  ports.find? fun port => port.name == name && port.direction == direction

end Port

end CallTrace.Pipeline
