import CallTrace.Bytes
import CallTrace.Log.Error
import CallTrace.Record

/-!
# Correlation

Each thread carries a context of three numbers: the trace it takes part in, the order index that the
next execution of the trace will get, and the current call depth. An execution claims an index and a
depth at its entry and restores the depth at its exit, which is all that is needed to nest a flat
stream of executions again.

A remote call carries a header. The caller reserves an order index for the callee and sends it with
the depth the callee runs at; the callee's thread starts from the header; the response brings back
how far the index has advanced.
-/

namespace CallTrace

/-- What a thread knows about the trace it takes part in. -/
structure Context where
  traceId : Int64
  /-- The order index that is handed out next. -/
  eoi : Int32
  /-- The current call depth. -/
  ess : Int32
  deriving DecidableEq, Repr

/-- The correlation data that travels with a remote call or with its response. -/
structure Header where
  traceId : Int64
  eoi : Int32
  ess : Int32
  deriving DecidableEq, Repr

/-! ## Headers -/

namespace Header

/-- The size of a header in bytes. -/
def size : Nat := 16

/-- Whether the header carries a trace. -/
def isPresent (header : Header) : Bool := header.traceId != noTrace

/-- The wire form of a header. -/
def toBytes (header : Header) : Bytes :=
  Bytes.ofInt64 header.traceId ++ Bytes.ofInt32 header.eoi ++ Bytes.ofInt32 header.ess

/-- Reads a header from the front of the bytes. -/
def ofBytes (bytes : Bytes) : Except Log.Fault Header :=
  let header : Option Header := do
    let (traceId, rest) ← Bytes.takeInt64 bytes
    let (eoi, rest) ← Bytes.takeInt32 rest
    let (ess, _) ← Bytes.takeInt32 rest
    return { traceId, eoi, ess }
  match header with
  | some header => .ok header
  | none => .error (.underflow size bytes.length)

end Header

/-! ## Contexts -/

namespace Context

/-- The context of a thread that takes part in no trace. -/
def unset : Context := { traceId := noTrace, eoi := CallTrace.unset, ess := CallTrace.unset }

instance : Inhabited Context := ⟨unset⟩

/-- Whether the thread takes part in a trace. -/
def isActive (context : Context) : Bool := context.traceId != noTrace

/-- Claims the current order index, or nothing when there is none left to claim. -/
def nextEoi (context : Context) : Int32 × Context :=
  if !context.isActive || context.eoi < 0 || context.eoi = Int32.maxValue then
    (CallTrace.unset, context)
  else (context.eoi, { context with eoi := context.eoi + 1 })

/-- Claims the current depth and goes one deeper, or claims nothing when there is no depth left. -/
def pushEss (context : Context) : Int32 × Context :=
  if !context.isActive || context.ess < 0 || context.ess = Int32.maxValue then
    (CallTrace.unset, context)
  else (context.ess, { context with ess := context.ess + 1 })

/-- Goes back to the depth that an execution had claimed. -/
def popEss (context : Context) (prior : Int32) : Context :=
  if !context.isActive || prior = CallTrace.unset then context else { context with ess := prior }

/-- Reserves an order index for a remote callee and gives the header that takes it there. -/
def outgoing (context : Context) : Option Header × Context :=
  if context.isActive then
    let (eoi, next) := context.nextEoi
    (some { traceId := context.traceId, eoi, ess := context.ess }, next)
  else (none, context)

/-- The context that a thread starts from when it serves a call with this header; a header with a
negative field starts nothing. -/
def ofHeader? (header : Header) : Option Context :=
  if header.traceId < 0 || header.eoi < 0 || header.ess < 0 then none
  else some { traceId := header.traceId, eoi := header.eoi, ess := header.ess }

/-- The header of the response to a remote call: how far the order index has advanced. -/
def response (context : Context) : Option Header :=
  if context.isActive then
    some { traceId := context.traceId, eoi := context.eoi, ess := CallTrace.unset }
  else none

/-- Skips the order indices that a remote callee of the same trace has used. -/
def resume (context : Context) (header : Header) : Context :=
  if context.isActive && header.traceId == context.traceId && context.eoi < header.eoi then
    { context with eoi := header.eoi }
  else context

end Context

/-! ## Executions in progress -/

/-- What an execution claimed at its entry. -/
structure Scope where
  traceId : Int64
  eoi : Int32
  ess : Int32
  /-- Whether the execution opened the trace. -/
  isEntry : Bool
  deriving DecidableEq, Repr

namespace Scope

/-- Whether the execution got everything it asked for. -/
def isValid (scope : Scope) : Bool :=
  scope.traceId != noTrace && scope.eoi != unset && scope.ess != unset

/-- What the exit of the execution leaves: no trace if the execution opened it, and otherwise the
depth at its entry. -/
def leave (scope : Scope) (context : Context) : Context :=
  if scope.isEntry then Context.unset else context.popEss scope.ess

end Scope

/-- The trace ids that a controller hands out, in ascending order. -/
structure TraceIds where
  next : Int64
  deriving DecidableEq, Repr

namespace TraceIds

/-- Trace ids from a first one on, or from zero if it is negative. -/
def startingAt (first : Int64) : TraceIds := { next := max first 0 }

/-- Hands out an id. -/
def allocate (ids : TraceIds) : Int64 × TraceIds := (ids.next, { next := ids.next + 1 })

/-- Joins the trace of the context, or opens one when there is none. The flag tells which. -/
def beginOrContinue (ids : TraceIds) (context : Context) : (Int64 × Bool) × TraceIds × Context :=
  if context.isActive then ((context.traceId, false), ids, context)
  else
    let (traceId, ids) := ids.allocate
    ((traceId, true), ids, { traceId, eoi := 0, ess := 0 })

/-- Enters an execution: joins or opens a trace and claims an order index and a depth. -/
def enter (ids : TraceIds) (context : Context) : Scope × TraceIds × Context :=
  let ((traceId, isEntry), ids, context) := ids.beginOrContinue context
  let (eoi, context) := context.nextEoi
  let (ess, context) := context.pushEss
  ({ traceId, eoi, ess, isEntry }, ids, context)

end TraceIds

end CallTrace
