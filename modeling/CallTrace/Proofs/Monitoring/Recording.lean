import CallTrace.Proofs.Correlation
import CallTrace.Proofs.Monitoring.Program
import CallTrace.Proofs.Monitoring.Reports

/-!
# What a run records

Which records a program writes within a trace can be told without running it, up to the order
indices and the time stamps (`recorded`): each call claims the index that its thread has reached and
reads the clock at its entry and at its exit. The caller of a remote call goes on behind the indices
of the callee, unless the callee panics: then no response tells how far they got (`reached`). Each
construct of a program makes its calls in this way (`Makes`), and so does the program (`run_makes`).
-/

namespace CallTrace.Monitoring

open Context (within)
open Steps

variable {n : Nat}

/-- How many calls are remote. -/
def remotes : CallForest (Callee n) → Nat
  | .none => 0
  | .call callee inner later => (if callee.isRemote then 1 else 0) + remotes inner + remotes later

theorem remotes_append (f g : CallForest (Callee n)) :
    remotes (f.append g) = remotes f + remotes g := by
  induction f with
  | none => simp [CallForest.append, remotes]
  | call callee inner later _ ih =>
    simp only [CallForest.append, remotes, ih]
    omega

/-! ## Calls that were made -/

/-- A call that was made. -/
structure MadeCall (n : Nat) extends Callee n where
  /-- Whether the caller goes on without a response, since the callee has panicked on another
  thread. -/
  isLost : Bool := false
  deriving DecidableEq, Repr

/-- The calls that a program makes. -/
def Program.made : Program n → CallForest (MadeCall n)
  | done => .none
  | panic => .none
  | call callee body next =>
    .call { callee with isLost := callee.isRemote && body.outcome.isPanic } body.made
      (if !callee.isRemote && body.outcome.isPanic then .none else next.made)
  | guarded body next => body.made.append next.made

/-- The order index at which a thread goes on after calls that began at an index. -/
def reached (eoi : Nat) : CallForest (MadeCall n) → Nat
  | .none => eoi
  | .call made inner later =>
    reached (if made.isLost then eoi + 1 else reached (eoi + 1) inner) later

theorem le_reached (eoi : Nat) (calls : CallForest (MadeCall n)) : eoi ≤ reached eoi calls := by
  induction calls generalizing eoi with
  | none => exact Nat.le_refl eoi
  | call made inner later ihInner ihLater =>
    have hinner := ihInner (eoi + 1)
    refine Nat.le_trans ?_ (ihLater _)
    split <;> omega

theorem reached_le (eoi : Nat) (calls : CallForest (MadeCall n)) :
    reached eoi calls ≤ eoi + calls.size := by
  induction calls generalizing eoi with
  | none => exact Nat.le_refl eoi
  | call made inner later ihInner ihLater =>
    have hinner := ihInner (eoi + 1)
    refine Nat.le_trans (ihLater _) ?_
    rw [CallForest.size]
    split <;> omega

theorem reached_append (eoi : Nat) (f g : CallForest (MadeCall n)) :
    reached eoi (f.append g) = reached (reached eoi f) g := by
  induction f generalizing eoi with
  | none => rfl
  | call made inner later _ ih => simp [CallForest.append, reached, ih]

/-- No call that was lost has made calls in turn. -/
def Settled : CallForest (MadeCall n) → Prop
  | .none => True
  | .call made inner later => (made.isLost = true → inner = .none) ∧ Settled inner ∧ Settled later

/-- A thread goes on behind a settled call as if nothing had been lost. -/
theorem resumed_of_settled {made : MadeCall n} {inner : CallForest (MadeCall n)}
    (h : made.isLost = true → inner = .none) (eoi : Nat) :
    (if made.isLost then eoi + 1 else reached (eoi + 1) inner) = reached (eoi + 1) inner := by
  cases hlost : made.isLost with
  | true => simp [h hlost, reached]
  | false => simp

theorem reached_of_settled {calls : CallForest (MadeCall n)} (h : Settled calls) (eoi : Nat) :
    reached eoi calls = eoi + calls.size := by
  induction calls generalizing eoi with
  | none => rfl
  | call made inner later ihInner ihLater =>
    obtain ⟨hmade, hinner, hlater⟩ := h
    rw [reached, resumed_of_settled hmade, ihInner hinner, ihLater hlater, CallForest.size]
    omega

theorem Settled.append {f g : CallForest (MadeCall n)} (hf : Settled f) (hg : Settled g) :
    Settled (f.append g) := by
  induction f with
  | none => exact hg
  | call made inner later _ ih => exact ⟨hf.1, hf.2.1, ih hf.2.2⟩

/-- Programs whose remote calls return lose nothing. -/
theorem Program.RemotesReturn.settled {program : Program n} (h : program.RemotesReturn) :
    Settled program.made := by
  induction program with
  | done => trivial
  | panic => trivial
  | call callee body next ihBody ihNext =>
    obtain ⟨hbody, hreturns, hnext⟩ := h
    have hkept : (callee.isRemote && body.outcome.isPanic) = false := by
      cases hremote : callee.isRemote with
      | true => simp [hreturns hremote]
      | false => rfl
    refine ⟨?_, ihBody hbody, ?_⟩
    · simp [hkept]
    · split
      · trivial
      · next hgoes =>
        refine ihNext (hnext ?_)
        cases hremote : callee.isRemote with
        | true => exact hreturns hremote
        | false => simpa [hremote] using hgoes
  | guarded body next ihBody ihNext => exact (ihBody h.1).append (ihNext h.2)

/-! ## Records that can be told in advance -/

/-- What all records of a trace have in common: the id of the trace, the hosts of the controllers,
and the clock. -/
structure Setting (n : Nat) where
  traceId : Int64
  host : Fin n → String
  /-- What the n-th reading of the clock gives. -/
  reading : Nat → Int64
  nonneg : ¬ traceId < 0

/-- How far a thread has got within a trace. -/
structure Place where
  session : String
  /-- How often the clock has been read. -/
  time : Nat
  eoi : Nat
  ess : Nat
  le : ess ≤ eoi

namespace Place

/-- Where the code of a call starts. The session of the caller stays on the thread of the caller. -/
def enter (place : Place) (made : MadeCall n) : Place where
  session := if made.isRemote then noSession else place.session
  time := place.time + 1
  eoi := place.eoi + 1
  ess := place.ess + 1
  le := Nat.succ_le_succ place.le

/-- Where the thread goes on after calls, each of which reads the clock twice. -/
def after (place : Place) (calls : CallForest (MadeCall n)) : Place where
  session := place.session
  time := place.time + 2 * calls.size
  eoi := reached place.eoi calls
  ess := place.ess
  le := Nat.le_trans place.le (le_reached _ _)

theorem after_append (place : Place) (f g : CallForest (MadeCall n)) :
    place.after (f.append g) = (place.after f).after g := by
  simp only [after, CallForest.size_append, reached_append, mk.injEq, true_and, and_true]
  omega

end Place

/-- The report of a call that makes these calls in turn. -/
def Setting.report (setting : Setting n) (place : Place) (made : MadeCall n)
    (calls : CallForest (MadeCall n)) : Fin n × Execution :=
  (made.controller, {
    component := made.component
    operation := made.operation
    session := (place.enter made).session
    traceId := setting.traceId
    tin := setting.reading place.time
    tout := setting.reading ((place.enter made).after calls).time
    host := setting.host made.controller
    eoi := .ofNat place.eoi
    ess := .ofNat place.ess })

/-- The reports of calls. -/
def recorded (setting : Setting n) (place : Place) :
    CallForest (MadeCall n) → CallForest (Fin n × Execution)
  | .none => .none
  | .call made inner later =>
    .call (setting.report place made inner) (recorded setting (place.enter made) inner)
      (recorded setting (place.after (.call made inner .none)) later)

theorem Place.after_call (place : Place) (made : MadeCall n)
    (inner later : CallForest (MadeCall n)) :
    place.after (.call made inner later) = (place.after (.call made inner .none)).after later :=
  place.after_append (.call made inner .none) later

theorem recorded_append (setting : Setting n) (place : Place) (f g : CallForest (MadeCall n)) :
    recorded setting place (f.append g)
      = (recorded setting place f).append (recorded setting (place.after f) g) := by
  induction f generalizing place with
  | none => rfl
  | call made inner later _ ih =>
    simp only [CallForest.append, recorded, ih]
    rw [place.after_call made inner later]

theorem size_recorded (setting : Setting n) (place : Place) (calls : CallForest (MadeCall n)) :
    (recorded setting place calls).size = calls.size := by
  induction calls generalizing place with
  | none => rfl
  | call made inner later ihInner ihLater =>
    simp [recorded, CallForest.size, ihInner, ihLater]

/-- Each record is the report of a call at a place within the indices of the calls. -/
theorem exists_place_of_mem_recorded {setting : Setting n} {place : Place}
    {calls : CallForest (MadeCall n)} {report : Fin n × Execution}
    (h : report ∈ (recorded setting place calls).entries) :
    ∃ between made inner, place.eoi ≤ between.eoi ∧ between.eoi < place.eoi + calls.size
      ∧ report = setting.report between made inner := by
  induction calls generalizing place with
  | none => simp [recorded, CallForest.entries] at h
  | call made inner later ihInner ihLater =>
    simp only [recorded, CallForest.entries, List.mem_cons, List.mem_append] at h
    rw [CallForest.size]
    rcases h with rfl | h | h
    · exact ⟨place, made, inner, Nat.le_refl _, by omega, rfl⟩
    · obtain ⟨between, other, calls, hle, hlt, heq⟩ := ihInner h
      have heoi : (place.enter made).eoi = place.eoi + 1 := rfl
      exact ⟨between, other, calls, by omega, by omega, heq⟩
    · obtain ⟨between, other, calls, hle, hlt, heq⟩ := ihLater h
      have hge := le_reached place.eoi (.call made inner .none)
      have hreached := reached_le place.eoi (.call made inner .none)
      have heoi : (place.after (.call made inner .none)).eoi
          = reached place.eoi (.call made inner .none) := rfl
      simp only [CallForest.size] at hreached
      exact ⟨between, other, calls, by omega, by omega, heq⟩

/-! ## Code within a trace -/

variable {ω : Type} [RecordWriter ω] {R : Reliable ω} {α β : Type} {setting : Setting n}
  {place : Place}

/-- A process with ready controllers that runs on a thread of a session, with a context, and has
read its clock so many times. -/
structure IsAt (R : Reliable ω) (setting : Setting n) (session : String) (time : Nat)
    (context : Context) (process : Process ω Notes n) : Prop where
  ready : Ready R process
  host : ∀ k, (process.controller k).host = setting.host k
  reading : process.clock.reading = setting.reading
  time : process.clock.readings = time
  session : process.thread.sessionId = session
  context : process.thread.context = context

/-- A process that runs at a place within a trace. -/
def StandsAt (R : Reliable ω) (setting : Setting n) (place : Place) (process : Process ω Notes n) :
    Prop :=
  IsAt R setting place.session place.time (within setting.traceId place.eoi place.ess) process

/-- What a part of a run that makes these calls has done: it has written their records, and all
threads that served remote calls have ended without a trace. -/
structure HasMade (R : Reliable ω) (setting : Setting n) (place : Place)
    (calls : CallForest (MadeCall n)) (before after : Process ω Notes n) : Prop where
  writes : Writes R before after (recorded setting place calls).exits
  left : after.memory.left
    = List.replicate (remotes (calls.map MadeCall.toCallee)) .unset ++ before.memory.left

/-- Wherever it runs within a trace, the code makes these calls and ends in this way. -/
def Makes (R : Reliable ω) (code : Code ω Notes n α) (result : Except Unit α)
    (calls : CallForest (MadeCall n)) : Prop :=
  ∀ (setting : Setting n) (place : Place) (process : Process ω Notes n),
    StandsAt R setting place process → place.eoi + calls.size < 2 ^ 31 →
    ∃ after, code process = (result, after) ∧ StandsAt R setting (place.after calls) after
      ∧ HasMade R setting place calls process after

theorem makes_pure (a : α) : Makes R (pure a : Code ω Notes n α) (.ok a) .none :=
  fun _ _ process h _ => ⟨process, rfl, h, Writes.refl h.ready, rfl⟩

theorem makes_panic : Makes R (Code.panic : Code ω Notes n α) (.error ()) .none :=
  fun _ _ process h _ => ⟨process, rfl, h, Writes.refl h.ready, rfl⟩

theorem HasMade.trans {calls more : CallForest (MadeCall n)}
    {before between after : Process ω Notes n} (h : HasMade R setting place calls before between)
    (h' : HasMade R setting (place.after calls) more between after) :
    HasMade R setting place (calls.append more) before after where
  writes := by
    rw [recorded_append, CallForest.exits_append]
    exact h.writes.trans h'.writes
  left := by
    rw [h'.left, h.left, ← List.append_assoc, List.replicate_append_replicate,
      CallForest.map_append, remotes_append, Nat.add_comm]

theorem Makes.bind {m : Code ω Notes n α} {f : α → Code ω Notes n β} {a : α}
    {result : Except Unit β} {calls more : CallForest (MadeCall n)} (hm : Makes R m (.ok a) calls)
    (hf : Makes R (f a) result more) : Makes R (m >>= f) result (calls.append more) := by
  intro setting place process hstands hlt
  rw [CallForest.size_append] at hlt
  have hreached := reached_le place.eoi calls
  obtain ⟨between, hrun, hbetween, hmade⟩ := hm setting place process hstands (by omega)
  obtain ⟨after, hrun', hafter, hmade'⟩ := hf setting (place.after calls) between hbetween (by
    show reached place.eoi calls + more.size < 2 ^ 31
    omega)
  rw [place.after_append]
  exact ⟨after, by rw [bind_of_ok hrun, hrun'], hafter, hmade.trans hmade'⟩

theorem Makes.bind_panic {m : Code ω Notes n α} {calls : CallForest (MadeCall n)}
    (hm : Makes R m (.error ()) calls) (f : α → Code ω Notes n β) :
    Makes R (m >>= f) (.error ()) calls := by
  intro setting place process hstands hlt
  obtain ⟨after, hrun, hafter⟩ := hm setting place process hstands hlt
  exact ⟨after, bind_of_error hrun, hafter⟩

/-- Catching a panic changes nothing but how the code ends. -/
theorem Makes.catching {body : Code ω Notes n Unit} {result : Except Unit Unit}
    {calls : CallForest (MadeCall n)} (h : Makes R body result calls) :
    Makes R (Code.catching body) (.ok (!result.isOk)) calls := by
  intro setting place process hstands hlt
  obtain ⟨after, hrun, hafter⟩ := h setting place process hstands hlt
  exact ⟨after, by rw [Code.catching, hrun], hafter⟩

/-! ## Monitored calls -/

omit [RecordWriter ω] in
theorem Process.enter_eq {process : Process ω Notes n} {k : Fin n} {scope : Scope} {ids : TraceIds}
    {context : Context}
    (h : (process.controller k).ids.enter process.thread.context = (scope, ids, context)) :
    process.enter k
      = (scope,
          (process.setController k { process.controller k with ids }).withContext context) := by
  simp only [Process.enter, Process.tracing, h]

/-- A probe of an enabled controller enters, runs the code, and exits however the code ended. -/
theorem monitor_enabled {process : Process ω Notes n} {k : Fin n} {component operation : String}
    {body : Code ω Notes n α} {result : Except Unit α} {scope : Scope}
    {entered after : Process ω Notes n} (henabled : (process.controller k).isEnabled = true)
    (henter : process.time.2.enter k = (scope, entered)) (hbody : body entered = (result, after)) :
    Code.monitor k component operation body process
      = (result, after.exit k { component, operation, tin := process.time.1, scope }) := by
  rw [Code.monitor, if_pos henabled]
  simp only [henter, Code.ensuring, hbody]

/-- What a call at a place claims. -/
def Setting.scope (setting : Setting n) (place : Place) (isEntry : Bool) : Scope :=
  { traceId := setting.traceId, eoi := .ofNat place.eoi, ess := .ofNat place.ess, isEntry }

/-- A call that claims its index and its depth enters the place where its code starts. -/
theorem enter_standsAt (made : MadeCall n) {process : Process ω Notes n} {context : Context}
    {ids : TraceIds} {isEntry : Bool}
    (hat : IsAt R setting (place.enter made).session place.time context process)
    (henter : (process.controller made.controller).ids.enter context
      = (setting.scope place isEntry, ids,
        within setting.traceId (place.eoi + 1) (place.ess + 1))) :
    ∃ entered, process.time.2.enter made.controller = (setting.scope place isEntry, entered)
      ∧ StandsAt R setting (place.enter made) entered
      ∧ Writes R process entered [] ∧ entered.memory = process.memory := by
  have hwrites : Writes R process ((process.time.2.setController made.controller
      { process.controller made.controller with ids }).withContext
        (within setting.traceId (place.eoi + 1) (place.ess + 1))) [] :=
    (Writes.of_enter hat.ready made.controller ids).congr rfl rfl
  rw [← hat.context] at henter
  refine ⟨_, Process.enter_eq henter, ?_, hwrites, rfl⟩
  exact ⟨hwrites.ready, fun k => (hwrites.host k).trans (hat.host k), hat.reading,
    congrArg (· + 1) hat.time, hat.session, rfl⟩

/-- **A monitored call has one record**, with the index and the depth that it claimed at its entry,
behind those of the calls that it makes. -/
theorem monitor_records (made : MadeCall n) {body : Code ω Notes n Unit}
    {result : Except Unit Unit} {calls : CallForest (MadeCall n)} {process : Process ω Notes n}
    {context : Context} {ids : TraceIds} {isEntry : Bool} (hbody : Makes R body result calls)
    (hat : IsAt R setting (place.enter made).session place.time context process)
    (henter : (process.controller made.controller).ids.enter context
      = (setting.scope place isEntry, ids, within setting.traceId (place.eoi + 1) (place.ess + 1)))
    (hlt : place.eoi + (1 + calls.size) < 2 ^ 31) :
    ∃ after, Code.monitor made.controller made.component made.operation body process
        = (result, after)
      ∧ IsAt R setting (place.enter made).session (place.after (.call made calls .none)).time
        ((setting.scope place isEntry).leave
          (within setting.traceId (reached (place.eoi + 1) calls) (place.ess + 1))) after
      ∧ Writes R process after (recorded setting place (.call made calls .none)).exits
      ∧ after.memory.left
        = List.replicate (remotes (calls.map MadeCall.toCallee)) .unset ++ process.memory.left := by
  obtain ⟨entered, hentered, hstands, hquiet, hmemory⟩ := enter_standsAt made hat henter
  obtain ⟨between, hrun, hbetween, hmade⟩ := hbody setting (place.enter made) entered hstands (by
    show place.eoi + 1 + calls.size < 2 ^ 31
    omega)
  let pending : Pending :=
    ⟨made.component, made.operation, process.time.1, setting.scope place isEntry⟩
  have hle := place.le
  have hvalid : pending.scope.isValid = true :=
    Scope.isValid_within setting.nonneg (by omega) (by omega) isEntry
  have hexit := Process.exit_writes hbetween.ready made.controller pending hvalid
  have hexecution : (made.controller, pending.execution between.thread.sessionId
      (between.controller made.controller).host between.time.1)
        = setting.report place made calls := by
    have htin : process.time.1 = setting.reading place.time := by
      show process.clock.reading process.clock.readings = _
      rw [hat.reading, hat.time]
    have htout : between.time.1 = setting.reading ((place.enter made).after calls).time := by
      show between.clock.reading between.clock.readings = _
      rw [hbetween.reading, hbetween.time]
    rw [hbetween.session, hbetween.host, htout]
    simp only [pending, htin]
    rfl
  rw [hexecution] at hexit
  have heq := between.exit_of_isValid made.controller pending hvalid
  refine ⟨between.exit made.controller pending, monitor_enabled (hat.ready _).enabled hentered hrun,
    ⟨hexit.ready, fun k => (hexit.host k).trans (hbetween.host k), ?_, ?_, ?_, ?_⟩, ?_, ?_⟩
  · rw [heq]
    exact hbetween.reading
  · rw [heq]
    refine (congrArg (· + 1) hbetween.time).trans ?_
    simp only [Place.after, Place.enter, CallForest.size]
    omega
  · rw [heq]
    exact hbetween.session
  · rw [heq]
    exact congrArg pending.scope.leave hbetween.context
  · simpa [recorded, CallForest.exits] using (hquiet.trans hmade.writes).trans hexit
  · rw [heq, ← hmemory]
    exact hmade.left

/-- The depth goes back to where it was before the call. -/
theorem leave_within (hlt : place.eoi < 2 ^ 31) (eoi : Nat) :
    (setting.scope place false).leave (within setting.traceId eoi (place.ess + 1))
      = within setting.traceId eoi place.ess := by
  have hle := place.le
  rw [Scope.leave, if_neg (by simp [Setting.scope]), Setting.scope,
    Context.popEss_within setting.nonneg (by omega)]

/-- An execution within the trace claims the index and the depth of its place. -/
theorem enter_place (ids : TraceIds) (hlt : place.eoi + 1 < 2 ^ 31) :
    ids.enter (within setting.traceId place.eoi place.ess)
      = (setting.scope place false, ids,
        within setting.traceId (place.eoi + 1) (place.ess + 1)) := by
  have hle := place.le
  rw [TraceIds.enter_within setting.nonneg hlt (by omega), Setting.scope]

/-- A local call leaves the depth as it was, and the index behind its calls. -/
theorem Makes.monitor (made : MadeCall n) {body : Code ω Notes n Unit}
    {result : Except Unit Unit} {calls : CallForest (MadeCall n)}
    (hbody : Makes R body result calls)
    (hlocal : made.isRemote = false) (hkept : made.isLost = false) :
    Makes R (Code.monitor made.controller made.component made.operation body) result
      (.call made calls .none) := by
  intro setting place process hstands hlt
  rw [CallForest.size, CallForest.size, Nat.add_zero] at hlt
  have hsession : (place.enter made).session = place.session := by simp [Place.enter, hlocal]
  obtain ⟨after, hrun, hafter, hwrites, hleft⟩ := monitor_records made hbody
    (show IsAt R setting (place.enter made).session _ _ _ by rw [hsession]; exact hstands)
    (enter_place _ (by omega)) hlt
  refine ⟨after, hrun, ?_, hwrites, ?_⟩
  · rw [hsession, leave_within (by omega)] at hafter
    simpa [StandsAt, Place.after, reached, hkept] using hafter
  · simpa [CallForest.map, remotes, hlocal] using hleft

/-! ## Remote calls -/

/-- The header of a remote call from a place. -/
def Setting.header (setting : Setting n) (place : Place) : Header :=
  { traceId := setting.traceId, eoi := .ofNat place.eoi, ess := .ofNat place.ess }

/-- The header that tells how far the index has got. -/
def Setting.response (setting : Setting n) (eoi : Nat) : Header :=
  { traceId := setting.traceId, eoi := .ofNat eoi, ess := unset }

/-- **Serving a call joins the trace of its header** and leaves no trace on the thread. If the code
returns, there is a response to tell how far the index has got. -/
theorem serving_records {made : MadeCall n} {body : Code ω Notes n Unit}
    {result : Except Unit Unit} {calls : CallForest (MadeCall n)} {context : Context}
    {process : Process ω Notes n} (hbody : Makes R body result calls)
    (hat : IsAt R setting (place.enter made).session place.time context process)
    (hlt : place.eoi + (1 + calls.size) < 2 ^ 31) :
    ∃ after, serving made.toCallee (some (setting.header place)) body process = (result, after)
      ∧ IsAt R setting (place.enter made).session (place.after (.call made calls .none)).time .unset
        after
      ∧ Writes R process after (recorded setting place (.call made calls .none)).exits
      ∧ after.memory.left
        = List.replicate (remotes (calls.map MadeCall.toCallee)) .unset ++ process.memory.left
      ∧ (result = .ok () →
        after.memory.response = some (setting.response (reached (place.eoi + 1) calls))) := by
  have hle := place.le
  have hheader : (some (setting.header place)).bind Context.ofHeader?
      = some (within setting.traceId place.eoi place.ess) :=
    Context.ofHeader?_within setting.nonneg (by omega) (by omega)
  let joined := process.withContext (within setting.traceId place.eoi place.ess)
  obtain ⟨after, hrun, hafter, hwrites, hleft⟩ := monitor_records made hbody
    (show IsAt R setting _ _ _ joined from { hat with context := rfl })
    (enter_place _ (by omega)) hlt
  rw [leave_within (by omega)] at hafter
  cases result with
  | error panic =>
    refine ⟨after.withContext .unset, ?_, { hafter with context := rfl }, hwrites.congr rfl rfl,
      hleft, by simp⟩
    have hserve : Code.serve made.controller (some (setting.header place)) made.component
        made.operation body process = (.error panic, after.withContext .unset) := by
      simp only [Code.serve, hheader, Code.ensuring]
      rw [bind_of_error hrun]
    exact bind_of_error hserve
  | ok _ =>
    let response := setting.response (reached (place.eoi + 1) calls)
    refine ⟨(after.withContext .unset).noteResponse (some response), ?_,
      { hafter with context := rfl }, hwrites.congr rfl rfl, hleft, fun _ => rfl⟩
    have hserve : Code.serve made.controller (some (setting.header place)) made.component
        made.operation body process = (.ok ((), some response), after.withContext .unset) := by
      have hresponse : after.thread.context.response = some response := by
        rw [hafter.context]
        exact Context.response_within setting.nonneg
      simp only [Code.serve, hheader, Code.ensuring]
      rw [bind_of_ok hrun, ← hresponse]
      rfl
    rw [serving, bind_of_ok hserve]
    rfl

/-- **A remote call makes its calls on a thread of its own**, and the caller goes on whether or not
it panics: behind the indices of the callee if it returns, and else behind the one index that the
header took along. -/
theorem makes_remoteCall (made : MadeCall n) {body : Code ω Notes n Unit}
    {result : Except Unit Unit} {calls : CallForest (MadeCall n)}
    (hbody : Makes R body result calls)
    (hremote : made.isRemote = true) (hlost : made.isLost = !result.isOk) :
    Makes R (remoteCall made.toCallee body) (.ok ()) (.call made calls .none) := by
  intro setting place process hstands hlt
  rw [CallForest.size, CallForest.size, Nat.add_zero] at hlt
  let reserved := process.withContext (within setting.traceId (place.eoi + 1) place.ess)
  -- the call is served on a thread of its own, which knows nothing but the header
  let started : Process ω Notes n := { reserved with thread := {} }
  have hsession : (place.enter made).session = noSession := by simp [Place.enter, hremote]
  have hstarted : IsAt R setting (place.enter made).session place.time .unset started := {
    hstands with
    session := hsession.symm
    context := rfl }
  obtain ⟨after, hserving, hafter, hwrites, hleft, hresponse⟩ := serving_records hbody hstarted hlt
  have houtgoing : (Code.outgoing : Code ω Notes n _) process
      = (.ok (some (setting.header place)), reserved) := by
    simp only [Code.outgoing, Code.onContext, Code.step, hstands.context,
      Context.outgoing_within setting.nonneg (show place.eoi + 1 < 2 ^ 31 by omega)]
    rfl
  let back : Process ω Notes n := { after.noteContext with thread := reserved.thread }
  have hthread : Code.onThread
      ((serving made.toCallee (some (setting.header place)) body).ensuring Process.noteContext)
      reserved = (.ok (!result.isOk), back) := by
    simp only [Code.onThread, Code.ensuring]
    rw [hserving]
  let context := within setting.traceId (place.after (.call made calls .none)).eoi place.ess
  have hcall : remoteCall made.toCallee body process = (.ok (), back.withContext context) := by
    rw [remoteCall, bind_of_ok houtgoing, bind_of_ok hthread]
    cases result with
    | error panic =>
      have hcontext : context = back.thread.context := by simp [context, back, reserved,
        Place.after, reached, hlost, Except.isOk, Except.toBool, Process.withContext]
      rw [hcontext]
      rfl
    | ok _ =>
      have hcontext : back.thread.context.resume
          (setting.response (reached (place.eoi + 1) calls)) = context := by
        have hle := le_reached (place.eoi + 1) calls
        have hge := reached_le (place.eoi + 1) calls
        simp only [context, Place.after, reached, hlost]
        exact Context.resume_within setting.nonneg hle (by omega)
      have hnoted : back.memory.response
          = some (setting.response (reached (place.eoi + 1) calls)) := hresponse rfl
      have hread : (Code.step fun process : Process ω Notes n =>
          (if (!(Except.ok () : Except Unit Unit).isOk) = true then none
            else process.memory.response, process)) back
          = (.ok (some (setting.response (reached (place.eoi + 1) calls))), back) := by
        rw [← hnoted]
        rfl
      rw [bind_of_ok hread, ← hcontext]
      rfl
  refine ⟨_, hcall, ?_, hwrites.congr rfl rfl, ?_⟩
  · exact ⟨hafter.ready, hafter.host, hafter.reading, hafter.time, hstands.session, rfl⟩
  · show after.thread.context :: after.memory.left = _
    have hremotes : remotes ((CallForest.call made calls .none).map MadeCall.toCallee)
        = remotes (calls.map MadeCall.toCallee) + 1 := by
      simp [CallForest.map, remotes, hremote, Nat.add_comm]
    rw [hafter.context, hleft, hremotes, List.replicate_succ]
    rfl

/-! ## Programs -/

/-- The calls that a program makes are those of its outcome. -/
theorem Program.map_made (program : Program n) :
    program.made.map MadeCall.toCallee = program.outcome.calls := by
  induction program with
  | done => rfl
  | panic => rfl
  | call callee body next ihBody ihNext =>
    simp only [made, outcome, Outcome.andThen, CallForest.map, ihBody]
    split
    · rfl
    · simp [CallForest.append, ihNext]
  | guarded body next ihBody ihNext =>
    simp [made, outcome, Outcome.andThen, CallForest.map_append, ihBody, ihNext]

/-- **A program makes its calls** wherever it runs within a trace. -/
theorem run_makes (program : Program n) :
    Makes R program.run (if program.outcome.isPanic then .error () else .ok ()) program.made := by
  induction program with
  | done => exact makes_pure ()
  | panic => exact makes_panic
  | call callee body next ihBody ihNext =>
    let made : MadeCall n :=
      { callee with isLost := callee.isRemote && body.outcome.isPanic }
    have hcall : Makes R (callThrough callee body.run)
        (if (!callee.isRemote && body.outcome.isPanic) = true then .error () else .ok ())
        (.call made body.made .none) := by
      unfold callThrough
      cases hremote : callee.isRemote with
      | true =>
        refine makes_remoteCall made ihBody hremote ?_
        cases hpanic : body.outcome.isPanic <;>
          simp [made, hremote, hpanic, Except.isOk, Except.toBool]
      | false =>
        exact Makes.monitor made ihBody hremote (by simp [made, hremote])
    cases hpanic : !callee.isRemote && body.outcome.isPanic with
    | true =>
      rw [hpanic] at hcall
      simp only [Program.made, Program.outcome, Program.Outcome.andThen, hpanic, if_true]
      exact hcall.bind_panic _
    | false =>
      rw [hpanic] at hcall
      simp only [Program.made, Program.outcome, Program.Outcome.andThen, hpanic]
      exact hcall.bind ihNext
  | guarded body next ihBody ihNext => exact ihBody.catching.bind ihNext

/-! ## Whole traces -/

/-- What the records of a trace have in common that a process opens. -/
def Setting.ofProcess (process : Process ω Notes n) (traceId : Int64) (nonneg : ¬ traceId < 0) :
    Setting n where
  traceId
  host k := (process.controller k).host
  reading := process.clock.reading
  nonneg

/-- Where a thread opens a trace. -/
def Place.ofProcess (process : Process ω Notes n) : Place where
  session := process.thread.sessionId
  time := process.clock.readings
  eoi := 0
  ess := 0
  le := Nat.le_refl 0

/-- A call that opens a trace. -/
def MadeCall.root (callee : Callee n) : MadeCall n := { callee with isRemote := false }

/-- **A call outside all traces opens one**, which it leaves at its exit, with the records of all
calls that it has made; the threads that served remote calls have ended without a trace. -/
theorem root_records (callee : Callee n) (body : Program n) {process : Process ω Notes n}
    (hready : Ready R process) (hcontext : process.thread.context = .unset)
    (hid : ¬ (process.controller callee.controller).ids.next < 0)
    (hlt : 1 + body.made.size < 2 ^ 31) :
    let result := if body.outcome.isPanic then .error () else .ok ()
    ∃ after, Code.monitor callee.controller callee.component callee.operation body.run process
        = (result, after)
      ∧ after.thread.context = .unset
      ∧ Writes R process after
        (recorded (.ofProcess process _ hid) (.ofProcess process)
          (.call (.root callee) body.made .none)).exits
      ∧ after.memory.left
        = List.replicate (remotes body.outcome.calls) .unset ++ process.memory.left := by
  intro result
  let start := Place.ofProcess process
  have hat : IsAt R (.ofProcess process _ hid) (start.enter (.root callee)).session start.time
      .unset process := ⟨hready, fun _ => rfl, rfl, rfl, rfl, hcontext⟩
  obtain ⟨after, hrun, hafter, hwrites, hleft⟩ := monitor_records (.root callee)
    (run_makes body) hat (TraceIds.enter_unset hid) (by simpa [start, Place.ofProcess] using hlt)
  rw [body.map_made] at hleft
  exact ⟨after, hrun, hafter.context, hwrites, hleft⟩

end CallTrace.Monitoring
