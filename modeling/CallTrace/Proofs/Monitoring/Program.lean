import CallTrace.Monitoring.Probe
import CallTrace.Proofs.Trace.Forest

/-!
# Monitored programs

Programs that consist of monitored calls: local calls on the same thread, which may panic and be
caught further out, and synchronous remote calls. A remote call takes a header out of the caller's
thread, is served on a thread of its own with whichever controller, and its response, which is lost
if it panics, is applied before the caller goes on. Which calls a program executes, and how it ends,
can be told without running it (`Program.outcome`).
-/

namespace CallTrace.Monitoring

/-- What is called, and how: the operation and the controller that monitors it, on the caller's
thread or remotely. -/
structure Callee (n : Nat) where
  controller : Fin n
  component : String
  operation : String
  isRemote : Bool := false
  deriving DecidableEq, Repr

/-- A program of monitored calls. -/
inductive Program (n : Nat) where
  | done
  | panic
  /-- A call whose body is the first program. -/
  | call (callee : Callee n) (body next : Program n)
  /-- Code that catches the panics of the first program. -/
  | guarded (body next : Program n)

namespace Program

variable {n : Nat}

/-- How a program goes: the calls that it executes, and whether it panics in the end. -/
structure Outcome (n : Nat) where
  calls : CallForest (Callee n)
  isPanic : Bool

/-- The outcome of one program and, unless it panics, another one. -/
def Outcome.andThen (first second : Outcome n) : Outcome n :=
  if first.isPanic then first
  else { calls := first.calls.append second.calls, isPanic := second.isPanic }

/-- How the program goes. -/
def outcome : Program n → Outcome n
  | done => { calls := .none, isPanic := false }
  | panic => { calls := .none, isPanic := true }
  | call callee body next =>
    Outcome.andThen
      { calls := .call callee body.outcome.calls .none
        isPanic := !callee.isRemote && body.outcome.isPanic }
      next.outcome
  | guarded body next =>
    Outcome.andThen { calls := body.outcome.calls, isPanic := false } next.outcome

/-- The bodies of the remote calls that are executed return normally. -/
def RemotesReturn : Program n → Prop
  | done => True
  | panic => True
  | call callee body next =>
    body.RemotesReturn ∧ (callee.isRemote = true → body.outcome.isPanic = false)
      ∧ (body.outcome.isPanic = false → next.RemotesReturn)
  | guarded body next => body.RemotesReturn ∧ next.RemotesReturn

end Program

/-! ## Running programs -/

/-- What a program keeps for itself. -/
structure Notes where
  /-- The header in the response of the last remote call. -/
  response : Option Header := none
  /-- The contexts with which the threads of remote calls have ended, the last one first. -/
  left : List Context := []

variable {ω : Type} [RecordWriter ω] {n : Nat}

namespace Process

/-- Keeps the response of a remote call. -/
def noteResponse (process : Process ω Notes n) (response : Option Header) : Process ω Notes n :=
  { process with memory := { process.memory with response } }

/-- Notes the context with which the running thread ends. -/
def noteContext (process : Process ω Notes n) : Process ω Notes n :=
  { process with
    memory := { process.memory with left := process.thread.context :: process.memory.left } }

end Process

/-- Serves a remote call and keeps the response for the caller. -/
def serving (callee : Callee n) (header : Option Header) (body : Code ω Notes n Unit) :
    Code ω Notes n Unit := do
  let (_, response) ←
    Code.serve callee.controller header callee.component callee.operation body
  Code.step fun process => ((), process.noteResponse response)

/-- Calls an operation on another thread, which joins the trace by a header, and goes on in the
trace with the response. There is none if the operation panics. -/
def remoteCall (callee : Callee n) (body : Code ω Notes n Unit) : Code ω Notes n Unit := do
  let header ← Code.outgoing
  let panicked ← Code.onThread ((serving callee header body).ensuring Process.noteContext)
  let response ← Code.step fun process =>
    (if panicked then none else process.memory.response, process)
  match response with
  | some header => Code.applyResponse header
  | none => pure ()

/-- Calls an operation in the way it is to be called. -/
def callThrough (callee : Callee n) (body : Code ω Notes n Unit) : Code ω Notes n Unit :=
  if callee.isRemote then remoteCall callee body
  else Code.monitor callee.controller callee.component callee.operation body

/-- Runs a program under its probes. -/
def Program.run : Program n → Code ω Notes n Unit
  | .done => pure ()
  | .panic => Code.panic
  | .call callee body next => do
    callThrough callee body.run
    next.run
  | .guarded body next => do
    let _ ← Code.catching body.run
    next.run

end CallTrace.Monitoring
