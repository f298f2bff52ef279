/-!
# Monitoring records

What a probe reports: one execution of an operation, with the data that places it in its call tree,
or one branching decision. Times are nanoseconds. An execution is placed by its trace id, its
execution order index (`eoi`, the position of its entry within the trace) and its execution stack
size (`ess`, the call depth at its entry); `-1` in any of the three means that nothing is known.
-/

namespace CallTrace

/-- The trace id that stands for "no trace". -/
def noTrace : Int64 := -1

/-- The order index or stack size that stands for "unknown". -/
def unset : Int32 := -1

/-- The session id of a thread that has none. -/
def noSession : String := "<no-session-id>"

/-- One traced execution of an operation. -/
structure Execution where
  component : String
  operation : String
  session : String
  traceId : Int64
  /-- Entry time. -/
  tin : Int64
  /-- Exit time. -/
  tout : Int64
  host : String
  eoi : Int32
  ess : Int32
  deriving DecidableEq, Repr, Inhabited

namespace Execution

/-- The time spent in the execution; zero when the two times are inverted. A difference that does
not fit into 64 bits wraps, as in a build without overflow checks; one with them panics. -/
def duration (e : Execution) : Int64 := max (e.tout - e.tin) 0

/-- Whether all three correlation fields are known. -/
def isCorrelated (e : Execution) : Bool :=
  e.traceId != noTrace && e.eoi != unset && e.ess != unset

end Execution

/-- One branching decision. -/
structure Branching where
  timestamp : Int64
  branchId : Int32
  outcome : Int32
  deriving DecidableEq, Repr, Inhabited

/-- Anything a probe can report. -/
inductive Record where
  | execution (e : Execution)
  | branching (b : Branching)
  deriving DecidableEq, Repr, Inhabited

namespace Record

/-- The time a record is ordered by. -/
def timestamp : Record → Int64
  | execution e => e.tin
  | branching b => b.timestamp

/-- The execution that the record reports, if it reports one. -/
def execution? : Record → Option Execution
  | execution e => some e
  | branching _ => none

end Record

end CallTrace
