import CallTrace.Dataflow
import CallTrace.Numeral.Shortest
import CallTrace.Pipeline.Port
import CallTrace.Text.Quoted

/-!
# Events and settings

What flows through a pipeline, and the values that its stages can be configured with.
-/

namespace CallTrace.Pipeline

/-- An event. -/
inductive Event where
  | record (record : Record)
  | trace (trace : Trace)
  | call (call : Call)
  | dataflow (dataflow : Dataflow)
  deriving DecidableEq, Repr

namespace Event

/-- The type of an event. -/
def type : Event → EventType
  | .record (.execution _) => .operationExecution
  | .record (.branching _) => .branching
  | .trace _ => .executionTrace
  | .call _ => .operationCall
  | .dataflow _ => .dataflow

/-- The record that the event is, if it is one. -/
def record? : Event → Option Record
  | .record r => some r
  | _ => none

/-- The execution that the event reports, if it reports one. -/
def execution? (event : Event) : Option Execution := event.record?.bind Record.execution?

/-- The call tree that the event is, if it is one. -/
def trace? : Event → Option Trace
  | .trace t => some t
  | _ => none

/-- The call that the event is, if it is one. -/
def call? : Event → Option Call
  | .call c => some c
  | _ => none

/-- The dataflow that the event is, if it is one. -/
def dataflow? : Event → Option Dataflow
  | .dataflow d => some d
  | _ => none

/-- The trace that the event belongs to, if it belongs to one. -/
def traceId? : Event → Option Int64
  | .record (.execution e) => some e.traceId
  | .record (.branching _) => none
  | .trace t => some t.id
  | .call c => some c.traceId
  | .dataflow _ => none

end Event

/-- The value of a stage's setting. -/
inductive Setting where
  | bool (value : Bool)
  | int (value : Int64)
  | float (value : Float)
  | text (value : String)
  deriving Repr

namespace Setting

/-- The truth value, if the setting is one. -/
def bool? : Setting → Option Bool
  | bool value => some value
  | _ => none

/-- The integer, if the setting is one. -/
def int? : Setting → Option Int64
  | int value => some value
  | _ => none

/-- The floating-point number, if the setting is one. -/
def float? : Setting → Option Float
  | float value => some value
  | _ => none

/-- The text, if the setting is one. -/
def text? : Setting → Option String
  | text value => some value
  | _ => none

/-- The form in which messages show a setting. -/
def shown : Setting → String
  | bool value => s!"Bool({value})"
  | int value => s!"Int({value})"
  | float value => "Float(" ++ Numeral.floatText value ++ ")"
  | text value => "String(" ++ Text.quoted value ++ ")"

end Setting

end CallTrace.Pipeline
