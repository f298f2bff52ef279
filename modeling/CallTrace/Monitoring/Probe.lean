import CallTrace.Monitoring.Process

/-!
# Probes

A probe turns code into records. Around an execution it claims an order index and a depth at the
entry, and at the exit it writes one record and restores the depth; since the exit happens whichever
way the code ends, code that panics has its record, too, and leaves the context of the thread as it
was. A probe of a controller that is not enabled only runs the code.
-/

namespace CallTrace.Monitoring

/-- An execution that a probe has entered. -/
structure Pending where
  component : String
  operation : String
  /-- The time of the entry. -/
  tin : Int64
  scope : Scope
  deriving DecidableEq, Repr

namespace Pending

/-- The record of the execution when it ends. -/
def execution (pending : Pending) (session host : String) (tout : Int64) : Execution where
  component := pending.component
  operation := pending.operation
  session
  traceId := pending.scope.traceId
  tin := pending.tin
  tout
  host
  eoi := pending.scope.eoi
  ess := pending.scope.ess

end Pending

variable {ω μ : Type} {n : Nat} {α : Type}

/-! ## Remote calls -/

namespace Code

/-- The header for a remote call out of an execution. -/
def outgoing : Code ω μ n (Option Header) := onContext Context.outgoing

/-- Takes in the response header of a remote call. -/
def applyResponse (header : Header) : Code ω μ n Unit :=
  onContext fun context => ((), context.resume header)

end Code

/-! ## Executions -/

variable [RecordWriter ω]

/-- Ends an execution: its record is written, or its lack of correlation data reported, and then the
context goes back. -/
def Process.exit (process : Process ω μ n) (k : Fin n) (pending : Pending) : Process ω μ n :=
  let (tout, process) := process.time
  let controller := process.controller k
  let scope := pending.scope
  let controller :=
    if scope.isValid then
      let execution := pending.execution process.thread.sessionId controller.host tout
      (controller.accept (.execution execution)).2
    else (controller.reportInvalid scope.eoi scope.ess).2
  (process.setController k controller).leave scope

namespace Code

/-- Runs code as an execution of an operation. -/
def monitor (k : Fin n) (component operation : String) (body : Code ω μ n α) : Code ω μ n α :=
  fun process =>
    if (process.controller k).isEnabled then
      let (tin, process) := process.time
      let (scope, process) := process.enter k
      body.ensuring (·.exit k { component, operation, tin, scope }) process
    else body process

/-- Runs code as an execution that a remote caller asked for. With a header that carries a trace the
thread joins that trace. The trace leaves the thread at the end, whichever way the code ends; the
response header goes back to the caller. -/
def serve (k : Fin n) (header : Option Header) (component operation : String)
    (body : Code ω μ n α) : Code ω μ n (α × Option Header) := fun process =>
  let process := match header.bind Context.ofHeader? with
    | some context => process.withContext context
    | none => process
  let served : Code ω μ n (α × Option Header) := do
    let a ← monitor k component operation body
    let process ← get
    return (a, process.thread.context.response)
  served.ensuring (·.withContext .unset) process

/-- Records a branching decision and tells whether it was written. -/
def branch (k : Fin n) (branchId outcome : Int32) : Code ω μ n Bool := step fun process =>
  let (timestamp, process) := process.time
  let (isWritten, controller) :=
    (process.controller k).accept (.branching { timestamp, branchId, outcome })
  (isWritten, process.setController k controller)

end Code

end CallTrace.Monitoring
