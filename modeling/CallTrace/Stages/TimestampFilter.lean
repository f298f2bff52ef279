import CallTrace.Config
import CallTrace.Pipeline.Callback
import CallTrace.World

/-!
# The time window

Lets the records of a window of time pass. An execution lies in the window when it entered and left
within it, another record when its time does; both bounds belong to the window. Records outside of
it leave at a port of their own.
-/

namespace CallTrace

open Pipeline

/-- A stage that sorts records by a window of time. -/
structure TimestampFilter where
  notBefore : Int64 := Int64.minValue
  notAfter : Int64 := Int64.maxValue
  deriving DecidableEq, Repr

namespace TimestampFilter

/-- The name of the stage. -/
def name : String := "TimestampFilter"

/-- The port that takes records. -/
def input : String := "records"

/-- The port of the records in the window. -/
def within : String := "within"

/-- The port of the records outside of the window. -/
def outside : String := "outside"

/-- The ports of the stage. -/
def ports : List Port :=
  [.input input [.monitoringRecord], .output within [.monitoringRecord],
    .output outside [.monitoringRecord]]

/-- A filter without bounds. -/
def unbounded : TimestampFilter := {}

/-- The filter of a configuration. -/
def ofConfig (window : Config.Window) : TimestampFilter where
  notBefore := window.notBefore.getD Int64.minValue
  notAfter := window.notAfter.getD Int64.maxValue

/-- Whether a record lies in the window. -/
def isWithin (filter : TimestampFilter) : Record → Bool
  | .execution e => filter.notBefore ≤ e.tin && e.tout ≤ filter.notAfter
  | .branching b => filter.notBefore ≤ b.timestamp && b.timestamp ≤ filter.notAfter

/-- The port at which a record leaves. -/
def portOf (filter : TimestampFilter) (record : Record) : String :=
  if filter.isWithin record then within else outside

/-- Handles an event. -/
def onEvent (port : String) (event : Event) (filter : TimestampFilter) :
    Callback World (Ending × TimestampFilter) := do
  match event.record? with
  | none => return (.failed (.unexpected port event), filter)
  | some record =>
    let _ ← Callback.send (filter.portOf record) (.record record)
    return (.returned, filter)

/-- Changes one of the bounds. -/
def configure (key : String) (value : Setting) (filter : TimestampFilter) :
    Except StageFault TimestampFilter :=
  match value.int?, key with
  | none, _ => .error (.invalidSetting key "expected an integer timestamp")
  | some bound, "not_before" => .ok { filter with notBefore := bound }
  | some bound, "not_after" => .ok { filter with notAfter := bound }
  | some _, _ => .error (.invalidSetting key "unknown key")

end TimestampFilter

end CallTrace
