import CallTrace.Config
import CallTrace.Pipeline.Callback
import CallTrace.World
import Std.Data.ExtTreeSet

/-!
# Reconstruction of traces

Collects executions by trace id until a trace is finished. A finished trace that forms a call tree
leaves as a trace, followed by its calls; the executions of any other one are dropped or leave at a
port of their own.

Time is what the records say. A trace is finished when its newest exit lies further behind the
newest exit seen at all than the window allows, or when the pipeline terminates. A trace that looks
complete may still lack the executions of remote callees that return late, so by default it waits
as well; otherwise it is finished as soon as it is complete.
-/

namespace CallTrace

open Pipeline

/-- The executions of a trace that is not finished. What is known of them is brought up to date with
each one. -/
structure PendingTrace where
  /-- The executions in the order of their arrival. -/
  executions : List Execution := []
  /-- Their order indices. -/
  eois : Std.ExtTreeSet Int32 := ∅
  maxEoi : Int32 := 0
  hasRoot : Bool := false
  /-- The newest exit, or zero before that. -/
  lastTout : Int64 := 0

namespace PendingTrace

instance : Inhabited PendingTrace := ⟨{}⟩

/-- Takes an execution in. -/
def add (pending : PendingTrace) (e : Execution) : PendingTrace where
  executions := pending.executions ++ [e]
  eois := pending.eois.insert e.eoi
  maxEoi := max pending.maxEoi e.eoi
  hasRoot := pending.hasRoot || (e.eoi = 0 && e.ess = 0)
  lastTout := max pending.lastTout e.tout

/-- Whether there is a root and the order indices run from zero without gap or repetition. -/
def isComplete (pending : PendingTrace) : Bool :=
  pending.hasRoot && pending.eois.size = pending.executions.length
    && (pending.eois.size : Int) = pending.maxEoi.toInt + 1

end PendingTrace

/-- A stage that puts traces together. -/
structure TraceReconstruction where
  /-- How far a trace may stay behind the newest exit, in nanoseconds. -/
  window : Int64
  /-- Whether the executions of invalid traces are passed on. -/
  emitsInvalid : Bool
  /-- Whether complete traces wait. -/
  settles : Bool
  /-- The unfinished traces by their ids. -/
  pending : Std.ExtTreeMap Int64 PendingTrace := ∅
  /-- The newest exit of all. -/
  newestTout : Int64 := Int64.minValue
  /-- How many traces formed call trees. -/
  valid : UInt64 := 0
  /-- How many did not. -/
  invalid : UInt64 := 0
  /-- How many were still incomplete when the window closed. -/
  timedOut : UInt64 := 0

namespace TraceReconstruction

/-- What the stage gives out. -/
inductive Output where
  | trace (trace : Trace)
  | call (call : Call)
  | invalid (execution : Execution)
  deriving DecidableEq, Repr

/-! ## Ports and settings -/

/-- The name of the stage. -/
def name : String := "TraceReconstruction"

/-- The port that takes records. -/
def input : String := "records"

/-- The port of the traces. -/
def traces : String := "traces"

/-- The port of the calls. -/
def calls : String := "calls"

/-- The port of the executions of invalid traces. -/
def invalids : String := "invalid"

/-- The ports of the stage. -/
def ports : List Port :=
  [.input input [.monitoringRecord], .output traces [.executionTrace],
    .output calls [.operationCall], .output invalids [.operationExecution]]

/-- Port and event of an output. -/
def Output.emission : Output → String × Event
  | trace t => (traces, .trace t)
  | call c => (calls, .call c)
  | invalid e => (invalids, .record (.execution e))

/-- Milliseconds in nanoseconds. -/
def nanosOfMillis (millis : Nat) : Int64 := Saturating.clamp (millis * 1000000)

/-- A stage with a window in nanoseconds. -/
def ofWindow (window : Int64) (emitsInvalid settles : Bool) : TraceReconstruction :=
  { window, emitsInvalid, settles }

/-- The stage of a configuration. -/
def ofConfig (config : Config.Reconstruction) : TraceReconstruction :=
  ofWindow (nanosOfMillis config.maxDurationMillis.toNat) config.emitsInvalid config.settles

/-- Changes a setting. -/
def configure (key : String) (value : Setting) (stage : TraceReconstruction) :
    Except StageFault TraceReconstruction :=
  let unsupported := .error (.invalidSetting key ("unsupported value " ++ value.shown))
  match key, value with
  | "max_trace_duration_ms", .int millis =>
    if 0 ≤ millis then .ok { stage with window := nanosOfMillis millis.toInt.toNat }
    else unsupported
  | "emit_invalid_traces", .bool emitsInvalid => .ok { stage with emitsInvalid }
  | "settle_complete_traces", .bool settles => .ok { stage with settles }
  | _, _ => unsupported

/-! ## Finishing traces -/

/-- Finishes a trace with the given executions. -/
def finish (stage : TraceReconstruction) (id : Int64) (executions : List Execution) :
    List Output × TraceReconstruction :=
  match Trace.reconstruct id executions with
  | .ok trace => (.trace trace :: trace.calls.map .call, { stage with valid := stage.valid + 1 })
  | .error _ =>
    (if stage.emitsInvalid then executions.map .invalid else [],
      { stage with invalid := stage.invalid + 1 })

/-- Removes a trace from the unfinished ones and finishes it. -/
def release (stage : TraceReconstruction) (id : Int64) : List Output × TraceReconstruction :=
  match stage.pending[id]? with
  | none => ([], stage)
  | some pending => { stage with pending := stage.pending.erase id }.finish id pending.executions

/-- Counts a trace that has run out of time, if it is incomplete. -/
def countTimeout (stage : TraceReconstruction) (id : Int64) : TraceReconstruction :=
  match stage.pending[id]? with
  | some pending =>
    if pending.isComplete then stage else { stage with timedOut := stage.timedOut + 1 }
  | none => stage

/-- Finishes traces that have run out of time, in the given order. -/
def releaseExpired (stage : TraceReconstruction) :
    List Int64 → List Output × TraceReconstruction
  | [] => ([], stage)
  | id :: ids =>
    let (first, stage) := (stage.countTimeout id).release id
    let (rest, stage) := stage.releaseExpired ids
    (first ++ rest, stage)

/-- Finishes traces in the given order. -/
def releaseAll (stage : TraceReconstruction) : List Int64 → List Output × TraceReconstruction
  | [] => ([], stage)
  | id :: ids =>
    let (first, stage) := stage.release id
    let (rest, stage) := stage.releaseAll ids
    (first ++ rest, stage)

/-- The newest exit with which a trace need not be finished yet. -/
def deadline (stage : TraceReconstruction) : Int64 := Saturating.sub stage.newestTout stage.window

/-- The traces that have run out of time, by ascending id. -/
def expired (stage : TraceReconstruction) : List Int64 :=
  (stage.pending.toList.filter fun entry => entry.2.lastTout < stage.deadline).map (·.1)

/-! ## Events -/

/-- Takes an execution in. -/
def accept (stage : TraceReconstruction) (e : Execution) : TraceReconstruction :=
  { stage with
    newestTout := max stage.newestTout e.tout
    pending := stage.pending.insert e.traceId ((stage.pending[e.traceId]?.getD {}).add e) }

/-- Finishes a trace if it is complete and complete traces do not wait. -/
def releaseComplete (stage : TraceReconstruction) (id : Int64) :
    List Output × TraceReconstruction :=
  match stage.pending[id]? with
  | some pending =>
    if !stage.settles && pending.isComplete then stage.release id else ([], stage)
  | none => ([], stage)

/-- Handles an execution. One without correlation data is dropped. -/
def onExecution (stage : TraceReconstruction) (e : Execution) :
    List Output × TraceReconstruction :=
  if e.isCorrelated then
    let (completed, stage) := (stage.accept e).releaseComplete e.traceId
    let (timedOut, stage) := stage.releaseExpired stage.expired
    (completed ++ timedOut, stage)
  else ([], stage)

/-- Finishes what is left. -/
def close (stage : TraceReconstruction) : List Output × TraceReconstruction :=
  stage.releaseAll stage.pending.keys

/-- Handles an event. Branching decisions are of no interest. -/
def onEvent (port : String) (event : Event) (stage : TraceReconstruction) :
    Callback World (Ending × TraceReconstruction) := do
  match event with
  | .record (.branching _) => return (.returned, stage)
  | .record (.execution e) =>
    let (outputs, stage) := stage.onExecution e
    Callback.sendAll (outputs.map (·.emission))
    return (.returned, stage)
  | _ => return (.failed (.unexpected port event), stage)

/-- Finishes what is left when the pipeline terminates. -/
def onTerminate (stage : TraceReconstruction) : Callback World (Ending × TraceReconstruction) := do
  let (outputs, stage) := stage.close
  Callback.sendAll (outputs.map (·.emission))
  return (.returned, stage)

end TraceReconstruction

end CallTrace
