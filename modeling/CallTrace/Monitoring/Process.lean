import CallTrace.Monitoring.Controller

/-!
# Monitored processes

A process runs code that probes observe. All controllers of a process read one clock, and all probes
on a thread share the context of that thread, whichever controller they report to. Code may end by
a panic, which leaves everything that happened before it in place.
-/

namespace CallTrace.Monitoring

/-- A source of times: what the n-th reading gives, and how many readings there were. -/
structure Clock where
  reading : Nat → Int64
  readings : Nat := 0

namespace Clock

/-- A clock that advances by the same step at each reading. -/
def steady (start step : Int64) : Clock := { reading := fun n => start + step * Int64.ofNat n }

/-- Reads the clock. -/
def read (clock : Clock) : Int64 × Clock :=
  (clock.reading clock.readings, { clock with readings := clock.readings + 1 })

/-- Sets the clock, so that its next reading gives the time. -/
def set (clock : Clock) (time : Int64) : Clock :=
  let shift := time - clock.reading clock.readings
  { clock with reading := fun n => clock.reading n + shift }

end Clock

/-- What a thread keeps for its probes. -/
structure Thread where
  context : Context := .unset
  /-- The session that the thread works for. -/
  session : Option String := none
  deriving DecidableEq, Repr

/-- The session id that records of the thread carry. -/
def Thread.sessionId (thread : Thread) : String := thread.session.getD noSession

/-- A process with `n` controllers, seen from the thread that runs; `μ` is what the code keeps for
itself. -/
structure Process (ω μ : Type) (n : Nat) where
  clock : Clock
  controllers : Vector (Controller ω) n
  thread : Thread := {}
  memory : μ

/-- Code on a thread of a process. -/
abbrev Code (ω μ : Type) (n : Nat) := ExceptT Unit (StateM (Process ω μ n))

namespace Process

variable {ω μ : Type} {n : Nat}

/-- Reads the clock. -/
def time (process : Process ω μ n) : Int64 × Process ω μ n :=
  let (now, clock) := process.clock.read
  (now, { process with clock })

/-- Gives the running thread another context. -/
def withContext (process : Process ω μ n) (context : Context) : Process ω μ n :=
  { process with thread := { process.thread with context } }

/-- A controller. -/
def controller (process : Process ω μ n) (k : Fin n) : Controller ω := process.controllers.get k

/-- Puts a controller in its place. -/
def setController (process : Process ω μ n) (k : Fin n) (controller : Controller ω) :
    Process ω μ n :=
  { process with controllers := process.controllers.set k controller k.isLt }

/-- Takes a step that may need a new trace id, which a controller hands out. -/
def tracing {α : Type} (process : Process ω μ n) (k : Fin n)
    (f : TraceIds → Context → α × TraceIds × Context) : α × Process ω μ n :=
  let controller := process.controller k
  let (a, ids, context) := f controller.ids process.thread.context
  (a, (process.setController k { controller with ids }).withContext context)

/-- Enters an execution under a controller. -/
def enter (process : Process ω μ n) (k : Fin n) : Scope × Process ω μ n :=
  process.tracing k TraceIds.enter

/-- Leaves an execution. -/
def leave (process : Process ω μ n) (scope : Scope) : Process ω μ n :=
  process.withContext (scope.leave process.thread.context)

end Process

namespace Code

variable {ω μ : Type} {n : Nat} {α : Type}

/-- Ends by a panic. -/
def panic : Code ω μ n α := throw ()

/-- Runs code and then takes a step, whichever way the code ended. -/
def ensuring (body : Code ω μ n α) (exit : Process ω μ n → Process ω μ n) : Code ω μ n α :=
  fun process =>
    let (result, process) := body process
    (result, exit process)

/-- Runs code and tells whether it panicked. -/
def catching (body : Code ω μ n Unit) : Code ω μ n Bool := fun process =>
  let (result, process) := body process
  (.ok (!result.isOk), process)

/-- Runs code on a thread of its own, waits for it, and tells whether it panicked. -/
def onThread (body : Code ω μ n Unit) : Code ω μ n Bool := fun process =>
  let (result, after) := body { process with thread := {} }
  (.ok (!result.isOk), { after with thread := process.thread })

/-- Takes a step that gives a value. -/
def step (f : Process ω μ n → α × Process ω μ n) : Code ω μ n α := fun process =>
  let (a, process) := f process
  (.ok a, process)

/-- Takes a step on the context of the thread. -/
def onContext (f : Context → α × Context) : Code ω μ n α :=
  step fun process =>
    let (a, context) := f process.thread.context
    (a, process.withContext context)

/-- Takes a step on a controller. -/
def onController (k : Fin n) (f : Controller ω → α × Controller ω) : Code ω μ n α :=
  step fun process =>
    let (a, controller) := f (process.controller k)
    (a, process.setController k controller)

end Code

end CallTrace.Monitoring
