import CallTrace.Trace

/-!
# Dataflows

An observed transfer of data from an operation to another operation or to a storage.
-/

namespace CallTrace

/-- Which way data was seen to flow along an edge. -/
inductive Direction where
  | read
  | write
  | both
  deriving DecidableEq, Repr

namespace Direction

/-- What two observations of the same edge amount to. -/
def merge (a b : Direction) : Direction := if a = b then a else both

end Direction

/-- Where a dataflow goes. -/
inductive DataflowTarget where
  | operation (site : Site)
  | storage (name : String)
  deriving DecidableEq, Repr

/-- One observed dataflow. -/
structure Dataflow where
  source : Site
  target : DataflowTarget
  direction : Direction
  deriving DecidableEq, Repr

end CallTrace
