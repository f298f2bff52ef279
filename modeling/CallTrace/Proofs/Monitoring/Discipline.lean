import CallTrace.Proofs.Correlation
import CallTrace.Proofs.Monitoring.Audit
import CallTrace.Proofs.Monitoring.Reports

/-!
# The discipline of contexts

Probes restore the context of their thread, whatever fails: code may panic, writers may fail,
controllers may be switched and terminated between the entry and the exit of an execution, and the
counters may run out. Activities are programs in which all of that may happen, on any number of
controllers; a ledger takes down each monitored call. What holds from the start of any piece of
code to its end (`Disciplined`) adds up (`Disciplined.trans`) and is kept by a probe
(`monitored_disciplined`), so that it holds of every activity.
-/

namespace CallTrace.Monitoring

open Steps

variable {ω μ : Type} {n : Nat}

/-! ## Activities -/

/-- What a thread sees: its context and the controllers of its process. -/
structure Moment (ω : Type) (n : Nat) where
  context : Context
  controllers : Vector (Controller ω) n

/-- A controller at a moment. -/
def Moment.controller (moment : Moment ω n) (k : Fin n) : Controller ω := moment.controllers.get k

/-- A monitored call that is over. -/
structure CallNote (ω : Type) (n : Nat) where
  /-- The controller whose probe monitored it. -/
  controller : Fin n
  before : Moment ω n
  /-- When the code of the call had returned or panicked. -/
  ended : Moment ω n
  /-- When the probe was done, too. -/
  after : Moment ω n

/-- What is taken down while an activity runs. -/
structure Ledger (ω : Type) (n : Nat) where
  /-- When the code of the last call ended. -/
  ended : Moment ω n
  /-- The calls that are over, the last one first. -/
  calls : List (CallNote ω n) := []

/-- Code made of monitored calls that may panic, with panics that are caught, and with controllers
that are switched on and off and terminated. -/
inductive Activity (ω : Type) (n : Nat) where
  | done
  | panic
  /-- A call whose code is the first activity. -/
  | call (k : Fin n) (component operation : String) (body next : Activity ω n)
  /-- Code that catches the panics of the first activity and goes on knowing whether there was
  one. -/
  | guarded (body : Activity ω n) (next : Bool → Activity ω n)
  | setWriting (k : Fin n) (isWriting : Bool) (next : Activity ω n)
  | terminate (k : Fin n) (next : Activity ω n)
  /-- Code that goes on according to what it sees. -/
  | observe (next : Moment ω n → Activity ω n)

namespace Process

/-- What the running thread sees. -/
def moment (process : Process ω μ n) : Moment ω n := ⟨process.thread.context, process.controllers⟩

/-- Takes down that the code of a call has ended. -/
def noteEnd (process : Process ω (Ledger ω n) n) : Process ω (Ledger ω n) n :=
  { process with memory := { process.memory with ended := process.moment } }

/-- Takes down a call that is over. -/
def noteCall (process : Process ω (Ledger ω n) n) (controller : Fin n) (before : Moment ω n) :
    Process ω (Ledger ω n) n :=
  let call := { controller, before, ended := process.memory.ended, after := process.moment }
  { process with memory := { process.memory with calls := call :: process.memory.calls } }

end Process

section Running

variable [RecordWriter ω]

/-- Runs code as an execution and takes the call down, whichever way the code ends. -/
def monitored (k : Fin n) (component operation : String) (body : Code ω (Ledger ω n) n Unit) :
    Code ω (Ledger ω n) n Unit := fun process =>
  (Code.monitor k component operation (body.ensuring Process.noteEnd)).ensuring
    (·.noteCall k process.moment) process

namespace Activity

/-- Runs an activity under its probes. -/
def run : Activity ω n → Code ω (Ledger ω n) n Unit
  | done => pure ()
  | panic => Code.panic
  | call k component operation body next => do
    monitored k component operation body.run
    next.run
  | guarded body next => do
    let panicked ← Code.catching body.run
    (next panicked).run
  | setWriting k isWriting next => do
    Code.onController k fun controller => ((), { controller with isWriting })
    next.run
  | terminate k next => do
    let _ ← Code.onController k Controller.terminate
    next.run
  | observe next => do
    let process ← get
    (next process.moment).run

/-- How an activity ends that runs on a thread, in a process with such a clock and controllers. -/
def perform (activity : Activity ω n) (clock : Clock) (controllers : Vector (Controller ω) n)
    (thread : Thread) : Except Unit Unit × Process ω (Ledger ω n) n :=
  activity.run { clock, controllers, thread, memory := { ended := ⟨thread.context, controllers⟩ } }

end Activity

end Running

/-! ## What is to hold of each call -/

namespace CallNote

/-- The probe was enabled at the call. -/
def isProbed (call : CallNote ω n) : Bool := (call.before.controller call.controller).isEnabled

/-- The call opened a trace, with an id of the controller. -/
def opens (k : Fin n) (call : CallNote ω n) : Bool :=
  call.controller = k && call.isProbed && !call.before.context.isActive

/-- At the exit of an execution that did not get everything it asked for, no writer is handed a
record, and its controller has stopped. -/
structure Stops (call : CallNote (Audited ω) n) : Prop where
  handed : ∀ k, (call.after.controller k).writer.handed = (call.ended.controller k).writer.handed
  terminated : (call.after.controller call.controller).isTerminated = true

/-- The context is restored, and exhausted counters stop the monitoring. -/
structure Regular (call : CallNote (Audited ω) n) : Prop where
  restored : call.before.context.Restored call.after.context
  stops : call.isProbed = true → call.before.context.IsExhausted → call.Stops

end CallNote

/-- How many of the calls opened a trace with an id of the controller. -/
def opened (k : Fin n) (calls : List (CallNote ω n)) : Nat := calls.countP (CallNote.opens k)

/-- The record of an execution has an id, an order index and a depth that count from zero. -/
def IsCorrelated (record : Record) : Prop :=
  ∀ e, record = .execution e → 0 ≤ e.traceId ∧ 0 ≤ e.eoi ∧ 0 ≤ e.ess

/-- The generator can hand out so many ids without going past the last one. -/
def Suffices (ids : TraceIds) (count : Nat) : Prop :=
  ∃ first : Nat, ids = { next := .ofNat first } ∧ first + count ≤ 2 ^ 63

theorem Suffices.mono {ids : TraceIds} {count more : Nat} (h : Suffices ids more)
    (hle : count ≤ more) : Suffices ids count := by
  obtain ⟨first, rfl, hfirst⟩ := h
  exact ⟨first, rfl, by omega⟩

theorem Suffices.advance {ids : TraceIds} {count more : Nat} (h : Suffices ids (more + count)) :
    Suffices { next := ids.next + .ofNat count } more := by
  obtain ⟨first, rfl, hfirst⟩ := h
  refine ⟨first + count, ?_, by omega⟩
  rw [Int64.ofNat_add]

theorem Suffices.nonneg {ids : TraceIds} {count : Nat} (h : Suffices ids count) (hpos : 0 < count) :
    ¬ ids.next < 0 := by
  obtain ⟨first, rfl, hfirst⟩ := h
  have hint : (Int64.ofNat first).toInt = first := Int64.toInt_ofNat_of_lt (by omega)
  rw [Int64.lt_iff_toInt_lt, hint, Int64.toInt_zero]
  omega

/-! ## From one moment to a later one -/

variable {before between after : Process (Audited ω) (Ledger (Audited ω) n) n}
  {calls more : List (CallNote (Audited ω) n)}

theorem opened_append (k : Fin n) (calls more : List (CallNote ω n)) :
    opened k (calls ++ more) = opened k calls + opened k more :=
  List.countP_append

/-- What a piece of code does with the context, the writers and its calls. -/
structure Upholds (before after : Process (Audited ω) (Ledger (Audited ω) n) n)
    (calls : List (CallNote (Audited ω) n)) : Prop where
  restored : before.thread.context.Restored after.thread.context
  handed : ∀ k, ∃ new, (after.controller k).writer.handed
    = (before.controller k).writer.handed ++ new ∧ ∀ record ∈ new, IsCorrelated record
  regular : ∀ call ∈ calls, call.Regular

theorem Upholds.trans (h : Upholds before between calls) (h' : Upholds between after more) :
    Upholds before after (more ++ calls) where
  restored := h.restored.trans h'.restored
  handed k := by
    obtain ⟨new, hnew, hall⟩ := h.handed k
    obtain ⟨new', hnew', hall'⟩ := h'.handed k
    refine ⟨new ++ new', ?_, ?_⟩
    · rw [hnew', hnew, List.append_assoc]
    · intro record hrecord
      rcases List.mem_append.mp hrecord with hmem | hmem
      · exact hall record hmem
      · exact hall' record hmem
  regular := by
    intro call hcall
    rcases List.mem_append.mp hcall with hmem | hmem
    · exact h'.regular call hmem
    · exact h.regular call hmem

/-- A piece of code has taken down these calls, has handed out ids for those that opened a trace
and, if it started from a sound context and the ids did not run out, has upheld what is to hold. -/
structure Disciplined (before after : Process (Audited ω) (Ledger (Audited ω) n) n)
    (calls : List (CallNote (Audited ω) n)) : Prop where
  noted : after.memory.calls = calls ++ before.memory.calls
  next : ∀ k, (after.controller k).ids.next
    = (before.controller k).ids.next + .ofNat (opened k calls)
  upholds : before.thread.context.IsSound →
    (∀ k, Suffices (before.controller k).ids (opened k calls)) → Upholds before after calls

theorem Disciplined.trans (h : Disciplined before between calls)
    (h' : Disciplined between after more) : Disciplined before after (more ++ calls) where
  noted := by rw [h'.noted, h.noted, List.append_assoc]
  next k := by
    rw [h'.next, h.next, opened_append, Int64.add_assoc, ← Int64.ofNat_add, Nat.add_comm]
  upholds := by
    intro hsound hids
    have hfirst : Upholds before between calls := by
      refine h.upholds hsound fun k => (hids k).mono ?_
      rw [opened_append]
      omega
    refine hfirst.trans (h'.upholds (hfirst.restored.isSound hsound) fun k => ?_)
    have hrest := hids k
    rw [opened_append] at hrest
    have hadvanced := hrest.advance
    rw [← h.next] at hadvanced
    exact hadvanced

/-- A step that leaves the context alone and hands on no record. -/
theorem Disciplined.of_quiet (hmemory : after.memory.calls = before.memory.calls)
    (hcontext : after.thread.context = before.thread.context)
    (hids : ∀ k, (after.controller k).ids = (before.controller k).ids)
    (hhanded : ∀ k, (after.controller k).writer.handed = (before.controller k).writer.handed) :
    Disciplined before after [] where
  noted := hmemory
  next k := by
    rw [hids]
    exact (Int64.add_zero _).symm
  upholds _ _ := by
    refine ⟨?_, fun k => ⟨[], ?_, ?_⟩, ?_⟩
    · rw [hcontext]
      exact .refl _
    · rw [hhanded, List.append_nil]
    · simp
    · simp

/-! ## Entries and exits -/

namespace Process

variable (process : Process ω μ n) (k j : Fin n)

theorem controller_enter :
    (process.enter k).2.controller j
      = if k = j then { process.controller k with
          ids := ((process.controller k).ids.enter process.thread.context).2.1 }
        else process.controller j :=
  controller_setController k j _

theorem writer_enter :
    ((process.enter k).2.controller j).writer = (process.controller j).writer := by
  rw [controller_enter]
  by_cases hj : k = j
  · rw [if_pos hj, hj]
  · rw [if_neg hj]

/-- An entry takes one id if it opens a trace. -/
theorem next_enter :
    ((process.enter k).2.controller j).ids.next
      = (process.controller j).ids.next
        + .ofNat (if k = j ∧ process.thread.context.isActive = false then 1 else 0) := by
  rw [controller_enter]
  by_cases hj : k = j
  · subst hj
    rw [if_pos rfl]
    dsimp only
    rw [TraceIds.next_enter]
    cases process.thread.context.isActive <;> simp
  · simp [hj]

variable [RecordWriter ω]

/-- The exit of an execution hands its record on, or stops the monitoring. -/
theorem controller_exit (pending : Pending) :
    ∃ session host tout, (process.exit k pending).controller j
      = if k = j then
          if pending.scope.isValid then ((process.controller k).write
            (.execution (pending.execution session host tout))).2
          else (process.controller k).terminate.2
        else process.controller j :=
  ⟨_, _, _, controller_setController k j _⟩

theorem ids_exit (pending : Pending) :
    ((process.exit k pending).controller j).ids = (process.controller j).ids := by
  obtain ⟨session, host, tout, hexit⟩ := process.controller_exit k j pending
  rw [hexit]
  by_cases hj : k = j
  · subst hj
    rw [if_pos rfl]
    split
    · exact Controller.ids_write _ _
    · exact Controller.ids_terminate _
  · rw [if_neg hj]

end Process

section Exits

variable [RecordWriter ω] (process : Process (Audited ω) μ n) (k : Fin n) {pending : Pending}

/-- What an exit hands on is the record of an execution that got everything it asked for. -/
theorem handed_exit (pending : Pending) (j : Fin n) :
    ∃ new, ((process.exit k pending).controller j).writer.handed
        = (process.controller j).writer.handed ++ new
      ∧ ∀ record ∈ new, pending.scope.isValid = true
        ∧ ∃ session host tout, record = .execution (pending.execution session host tout) := by
  obtain ⟨session, host, tout, hexit⟩ := process.controller_exit k j pending
  rw [hexit]
  by_cases hj : k = j
  · subst hj
    rw [if_pos rfl]
    by_cases hvalid : pending.scope.isValid = true
    · rw [if_pos hvalid]
      rcases Controller.handed_write (process.controller k)
        (.execution (pending.execution session host tout)) with hnone | hone
      · exact ⟨[], by rw [hnone, List.append_nil], by simp⟩
      · refine ⟨[_], hone, ?_⟩
        intro record hrecord
        exact ⟨hvalid, session, host, tout, List.mem_singleton.mp hrecord⟩
    · rw [if_neg hvalid]
      exact ⟨[], by rw [Controller.handed_terminate, List.append_nil], by simp⟩
  · rw [if_neg hj]
    exact ⟨[], by simp, by simp⟩

theorem handed_exit_of_not_isValid (hvalid : pending.scope.isValid = false) (j : Fin n) :
    ((process.exit k pending).controller j).writer.handed
      = (process.controller j).writer.handed := by
  obtain ⟨new, hnew, hall⟩ := handed_exit process k pending j
  have hnone : new = [] := by
    rw [List.eq_nil_iff_forall_not_mem]
    intro record hrecord
    have hthis := (hall record hrecord).1
    rw [hvalid] at hthis
    cases hthis
  rw [hnew, hnone, List.append_nil]

theorem isTerminated_exit (hvalid : pending.scope.isValid = false) :
    ((process.exit k pending).controller k).isTerminated = true := by
  obtain ⟨session, host, tout, hexit⟩ := process.controller_exit k k pending
  rw [hexit, if_pos rfl, hvalid]
  exact Controller.isTerminated_terminate _

end Exits

/-! ## Probes -/

theorem opened_cons (j : Fin n) (call : CallNote ω n) (calls : List (CallNote ω n)) :
    opened j (call :: calls) = opened j calls + if call.opens j = true then 1 else 0 :=
  List.countP_cons

variable [RecordWriter ω] {process : Process (Audited ω) (Ledger (Audited ω) n) n} {k : Fin n}

omit [RecordWriter ω] in
/-- A call that no probe monitors. -/
theorem Disciplined.unmonitored (h : Disciplined before after calls)
    (hdisabled : (before.controller k).isEnabled = false) :
    Disciplined before (after.noteEnd.noteCall k before.moment)
      (⟨k, before.moment, after.moment, after.moment⟩ :: calls) := by
  have hprobed : ∀ ended last : Moment (Audited ω) n,
      CallNote.isProbed ⟨k, before.moment, ended, last⟩ = false := fun _ _ => hdisabled
  have hopened : ∀ j, opened j (⟨k, before.moment, after.moment, after.moment⟩ :: calls)
      = opened j calls := by
    intro j
    rw [opened_cons, CallNote.opens, hprobed]
    simp
  refine ⟨congrArg (_ :: ·) h.noted, ?_, ?_⟩
  · intro j
    rw [hopened]
    exact h.next j
  · intro hsound hids
    simp only [hopened] at hids
    obtain ⟨hrestored, hhanded, hregular⟩ := h.upholds hsound hids
    refine ⟨hrestored, hhanded, ?_⟩
    intro call hcall
    rcases List.mem_cons.mp hcall with rfl | hcall
    · refine ⟨hrestored, ?_⟩
      rw [hprobed]
      rintro ⟨⟩
    · exact hregular call hcall

/-- A call that a probe monitors: what its code keeps, the probe keeps from the entry to the
exit. -/
theorem Disciplined.probed {pending : Pending} (h : Disciplined before after calls)
    (henabled : (process.controller k).isEnabled = true)
    (hbefore : before.controllers = (process.enter k).2.controllers)
    (hcontext : before.thread.context = (process.enter k).2.thread.context)
    (hmemory : before.memory = process.memory) (hscope : pending.scope = (process.enter k).1) :
    Disciplined process ((after.noteEnd.exit k pending).noteCall k process.moment)
      (⟨k, process.moment, after.moment, (after.noteEnd.exit k pending).moment⟩ :: calls) := by
  have hopened : ∀ j, opened j
      (⟨k, process.moment, after.moment, (after.noteEnd.exit k pending).moment⟩ :: calls)
      = opened j calls
        + if k = j ∧ process.thread.context.isActive = false then 1 else 0 := by
    intro j
    rw [opened_cons]
    have hprobed : CallNote.isProbed ⟨k, process.moment, after.moment,
        (after.noteEnd.exit k pending).moment⟩ = true := henabled
    rw [CallNote.opens, hprobed]
    simp [Process.moment]
  have hcontroller : ∀ j, before.controller j = (process.enter k).2.controller j := by
    intro j
    rw [Process.controller, hbefore]
    rfl
  refine ⟨?_, ?_, ?_⟩
  · have hnoted := h.noted
    rw [hmemory] at hnoted
    exact congrArg (_ :: ·) hnoted
  · intro j
    have hexit : ((after.noteEnd.exit k pending).controller j).ids = (after.controller j).ids :=
      Process.ids_exit after.noteEnd k j pending
    show ((after.noteEnd.exit k pending).controller j).ids.next = _
    rw [hexit, h.next, hcontroller, Process.next_enter, hopened, Int64.add_assoc,
      ← Int64.ofNat_add, Nat.add_comm]
  · intro hsound hids
    -- an execution outside all traces is the one that the next id goes to
    have hnext : process.thread.context = .unset → ¬ (process.controller k).ids.next < 0 := by
      intro hunset
      refine (hids k).nonneg ?_
      rw [hopened, if_pos ⟨rfl, by rw [hunset]; rfl⟩]
      omega
    have hbeforeSound : before.thread.context.IsSound := by
      rw [hcontext]
      exact TraceIds.isSound_enter hsound hnext
    have hbeforeIds : ∀ j, Suffices (before.controller j).ids (opened j calls) := by
      intro j
      have hall := hids j
      rw [hopened] at hall
      have hadvanced := hall.advance
      rw [← Process.next_enter, ← hcontroller] at hadvanced
      exact hadvanced
    obtain ⟨hrestored, hhanded, hregular⟩ := h.upholds hbeforeSound hbeforeIds
    rw [hcontext] at hrestored
    have hall : process.thread.context.Restored
        (pending.scope.leave after.thread.context) := by
      rw [hscope]
      exact TraceIds.restored_leave hsound hnext hrestored
    refine ⟨hall, ?_, ?_⟩
    · intro j
      obtain ⟨new, hnew, hcorrelated⟩ := hhanded j
      obtain ⟨last, hlast, hrecord⟩ := handed_exit after.noteEnd k pending j
      refine ⟨new ++ last, ?_, ?_⟩
      · rw [hcontroller, Process.writer_enter] at hnew
        show ((after.noteEnd.exit k pending).controller j).writer.handed = _
        rw [hlast, ← List.append_assoc, ← hnew]
        rfl
      · intro record hmem
        rcases List.mem_append.mp hmem with hmem | hmem
        · exact hcorrelated record hmem
        · obtain ⟨hvalid, session, host, tout, rfl⟩ := hrecord record hmem
          rintro _ ⟨⟩
          rw [hscope] at hvalid
          simp only [Pending.execution, hscope]
          exact TraceIds.nonneg_of_isValid hsound hnext hvalid
    · intro call hcall
      rcases List.mem_cons.mp hcall with rfl | hcall
      · refine ⟨hall, fun _ hexhausted => ?_⟩
        have hvalid : pending.scope.isValid = false := by
          rw [hscope]
          exact TraceIds.not_isValid_of_isExhausted hsound hexhausted
        exact ⟨handed_exit_of_not_isValid after.noteEnd k hvalid,
          isTerminated_exit after.noteEnd k hvalid⟩
      · exact hregular call hcall

/-! ## Runs -/

/-- The code keeps the discipline wherever it starts. -/
def Code.IsDisciplined {α : Type} (code : Code (Audited ω) (Ledger (Audited ω) n) n α) : Prop :=
  ∀ process, ∃ calls, Disciplined process (code process).2 calls

namespace Code.IsDisciplined

variable {α β : Type} {code : Code (Audited ω) (Ledger (Audited ω) n) n α}

omit [RecordWriter ω] in
theorem bind {f : α → Code (Audited ω) (Ledger (Audited ω) n) n β} (h : code.IsDisciplined)
    (hf : ∀ a, (f a).IsDisciplined) : (code >>= f).IsDisciplined := by
  intro process
  obtain ⟨calls, hcode⟩ := h process
  cases hrun : code process with
  | mk result between =>
    rw [hrun] at hcode
    cases result with
    | error panic =>
      rw [bind_of_error hrun]
      exact ⟨calls, hcode⟩
    | ok a =>
      obtain ⟨more, hmore⟩ := hf a between
      rw [bind_of_ok hrun]
      exact ⟨more ++ calls, hcode.trans hmore⟩

omit [RecordWriter ω] in
/-- Code that does not change the process. -/
theorem of_same (h : ∀ process, (code process).2 = process) : code.IsDisciplined := by
  intro process
  rw [h]
  exact ⟨[], .of_quiet rfl rfl (fun _ => rfl) fun _ => rfl⟩

omit [RecordWriter ω] in
theorem catching {body : Code (Audited ω) (Ledger (Audited ω) n) n Unit}
    (h : body.IsDisciplined) : (Code.catching body).IsDisciplined :=
  h

omit [RecordWriter ω] in
/-- A step on a controller that takes no ids and hands on no record. -/
theorem onController (k : Fin n) {f : Controller (Audited ω) → α × Controller (Audited ω)}
    (hids : ∀ controller, (f controller).2.ids = controller.ids)
    (hhanded : ∀ controller, (f controller).2.writer.handed = controller.writer.handed) :
    (Code.onController (μ := Ledger (Audited ω) n) k f).IsDisciplined := by
  intro process
  have hcontroller : ∀ j, (Code.onController k f process).2.controller j
      = if k = j then (f (process.controller k)).2 else process.controller j :=
    fun j => Process.controller_setController k j _
  refine ⟨[], .of_quiet rfl rfl ?_ ?_⟩
  · intro j
    rw [hcontroller]
    by_cases hj : k = j
    · rw [if_pos hj, hids, hj]
    · rw [if_neg hj]
  · intro j
    rw [hcontroller]
    by_cases hj : k = j
    · rw [if_pos hj, hhanded, hj]
    · rw [if_neg hj]

/-- **A probe keeps the discipline of the code that it monitors.** -/
theorem monitored {body : Code (Audited ω) (Ledger (Audited ω) n) n Unit} (h : body.IsDisciplined)
    (k : Fin n) (component operation : String) :
    (monitored k component operation body).IsDisciplined := by
  intro process
  by_cases henabled : (process.controller k).isEnabled = true
  · let entered := (process.time.2.enter k).2
    let pending : Pending := ⟨component, operation, process.time.1, (process.enter k).1⟩
    obtain ⟨calls, hbody⟩ := h entered
    have hprobed : Disciplined process
        (((body entered).2.noteEnd.exit k pending).noteCall k process.moment) _ :=
      hbody.probed henabled rfl rfl rfl rfl
    have hrun : (Monitoring.monitored k component operation body process).2
        = ((body entered).2.noteEnd.exit k pending).noteCall k process.moment := by
      unfold Monitoring.monitored Code.monitor Code.ensuring
      dsimp only
      rw [if_pos henabled]
      rfl
    rw [hrun]
    exact ⟨_, hprobed⟩
  · obtain ⟨calls, hbody⟩ := h process
    have hrun : (Monitoring.monitored k component operation body process).2
        = (body process).2.noteEnd.noteCall k process.moment := by
      unfold Monitoring.monitored Code.monitor Code.ensuring
      dsimp only
      rw [if_neg henabled]
      rfl
    rw [hrun]
    exact ⟨_, hbody.unmonitored (Bool.not_eq_true _ ▸ henabled)⟩

end Code.IsDisciplined

/-- **Every activity keeps the discipline.** The induction is on the activity. -/
theorem Activity.run_isDisciplined (activity : Activity (Audited ω) n) :
    activity.run.IsDisciplined := by
  induction activity with
  | done => exact .of_same fun _ => rfl
  | panic => exact .of_same fun _ => rfl
  | call k component operation body next ihBody ihNext =>
    exact (ihBody.monitored k component operation).bind fun _ => ihNext
  | guarded body next ihBody ihNext => exact ihBody.catching.bind ihNext
  | setWriting k isWriting next ih =>
    exact (Code.IsDisciplined.onController k (fun _ => rfl) fun _ => rfl).bind fun _ => ih
  | terminate k next ih =>
    exact (Code.IsDisciplined.onController k Controller.ids_terminate
      Controller.handed_terminate).bind fun _ => ih
  | observe next ih =>
    have hget : Code.IsDisciplined (get : Code (Audited ω) (Ledger (Audited ω) n) n _) :=
      .of_same fun _ => rfl
    exact hget.bind fun process => ih process.moment

/--
**Contexts keep their discipline under every kind of failure.** An activity runs on a thread with
any sound context, in a process with any number of controllers whose writers may fail at any time,
and whose generators do not run out of trace ids. Then each monitored call has restored the context
of the thread, whichever way it ended; all records of executions that writers were handed have
trace ids, order indices and depths that count from zero; and a probed call whose counters had run
out handed nothing on at its exit, where its controller stopped.
-/
theorem context_is_restored (activity : Activity (Audited ω) n) (clock : Clock)
    (controllers : Vector (Controller (Audited ω)) n) (thread : Thread)
    (hsound : thread.context.IsSound) (first : Fin n → Nat)
    (hfirst : ∀ k, (controllers.get k).ids = { next := .ofNat (first k) })
    (hids : ∀ k, first k
      + opened k (activity.perform clock controllers thread).2.memory.calls ≤ 2 ^ 63) :
    let after := (activity.perform clock controllers thread).2
    (∀ call ∈ after.memory.calls, call.before.context.Restored call.after.context)
      ∧ (∀ k, ∃ new,
        (after.controller k).writer.handed = (controllers.get k).writer.handed ++ new
        ∧ ∀ e, .execution e ∈ new → 0 ≤ e.traceId ∧ 0 ≤ e.eoi ∧ 0 ≤ e.ess)
      ∧ ∀ call ∈ after.memory.calls, call.isProbed = true → call.before.context.IsExhausted →
        call.Stops := by
  intro after
  obtain ⟨calls, hdisciplined⟩ := activity.run_isDisciplined
    { clock, controllers, thread, memory := { ended := ⟨thread.context, controllers⟩ } }
  have hcalls : after.memory.calls = calls := hdisciplined.noted.trans (List.append_nil calls)
  obtain ⟨-, hhanded, hregular⟩ := hdisciplined.upholds hsound fun k => by
    refine ⟨first k, hfirst k, ?_⟩
    rw [← hcalls]
    exact hids k
  rw [← hcalls] at hregular
  refine ⟨fun call hcall => (hregular call hcall).restored, fun k => ?_,
    fun call hcall => (hregular call hcall).stops⟩
  obtain ⟨new, hnew, hcorrelated⟩ := hhanded k
  exact ⟨new, hnew, fun e he => hcorrelated _ he e rfl⟩

/-- Two calls under controllers of their own, the inner one of which panics. -/
def innerPanics : Activity (Audited MemoryWriter) 2 :=
  .guarded (.call 0 "A" "f()" (.call 1 "B" "g()" .panic .done) .done) fun _ => .done

/-- Two controllers that have written nothing. -/
def twoControllers : Vector (Controller (Audited MemoryWriter)) 2 :=
  #v[{ writer := { writer := {} } }, { writer := { writer := {} } }]

/-- A thread in whose trace one order index is left. -/
def almostExhausted : Thread := { context := { traceId := 5, eoi := Int32.maxValue - 1, ess := 0 } }

/-- The outer call takes the last index, and the inner one stops its controller. -/
theorem restored_when_exhausted :
    let after := (innerPanics.perform (.steady 0 1) twoControllers almostExhausted).2
    almostExhausted.context.IsSound ∧ (∀ k, (twoControllers.get k).ids = { next := .ofNat 0 })
      ∧ (∀ k, 0 + opened k after.memory.calls ≤ 2 ^ 63)
      ∧ after.memory.calls.map (·.controller) = [0, 1]
      ∧ (∀ call ∈ after.memory.calls, call.before.context.Restored call.after.context)
      ∧ ∃ inner ∈ after.memory.calls, inner.Stops := by
  intro after
  have hsound : almostExhausted.context.IsSound := .inr (by decide)
  have hfirst : ∀ k, (twoControllers.get k).ids = { next := .ofNat 0 } := by decide
  have hids : ∀ k, 0 + opened k after.memory.calls ≤ 2 ^ 63 := by decide +kernel
  have hcalls : after.memory.calls.map (·.controller) = [0, 1] := by decide +kernel
  obtain ⟨inner, hinner, hprobed, hactive, heoi⟩ : ∃ call ∈ after.memory.calls,
      call.isProbed = true ∧ call.before.context.isActive = true
        ∧ call.before.context.eoi = Int32.maxValue := by decide +kernel
  obtain ⟨hrestored, -, hstops⟩ := context_is_restored innerPanics (.steady 0 1) twoControllers
    almostExhausted hsound (fun _ => 0) hfirst hids
  exact ⟨hsound, hfirst, hids, hcalls, hrestored, inner, hinner,
    hstops inner hinner hprobed ⟨hactive, .inl heoi⟩⟩

end CallTrace.Monitoring
