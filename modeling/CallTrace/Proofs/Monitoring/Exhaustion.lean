import CallTrace.Proofs.Monitoring.Audit
import CallTrace.Proofs.Monitoring.Recording

/-!
# Traces of any size

A trace has indices for fewer than `2 ^ 31` calls. The first call that gets none stops the
monitoring when it ends, before any of the calls around it does, so that all of these have no record
either: what was written is a front part of what the calls would have recorded (`root_writes`).
-/

namespace CallTrace.Monitoring

open Context (within)
open Steps

section Spent

variable {ω : Type}

/-- Monitoring has stopped, or it will when the next execution ends, since the trace has run out of
indices. -/
def Spent (process : Process ω Notes 1) : Prop :=
  (process.controller 0).isTerminated = true
    ∨ (process.controller 0).isEnabled = true ∧ process.thread.context.isActive = true
      ∧ process.thread.context.eoi = Int32.maxValue

variable [RecordWriter ω] {R : Reliable ω} {α β : Type}

theorem Process.exit_of_not_isValid (process : Process ω Notes 1) (k : Fin 1) (pending : Pending)
    (hvalid : pending.scope.isValid = false) :
    process.exit k pending
      = (process.time.2.setController k (process.controller k).terminate.2).leave
          pending.scope := by
  unfold Process.exit
  simp only [hvalid]
  rfl

/-- From one state to a later one, nothing has been written, and a call has stopped the
monitoring. -/
structure KeepsSilent (R : Reliable ω) (size : Nat) (before after : Process ω Notes 1) : Prop where
  spent : Spent after
  records : R.records (after.controller 0).writer = R.records (before.controller 0).writer
  terminated : (before.controller 0).isTerminated = true ∨ 0 < size →
    (after.controller 0).isTerminated = true

/-- Code that writes nothing once the monitoring has come to its end. -/
def IsSilent (R : Reliable ω) (code : Code ω Notes 1 α) (result : Except Unit α) (size : Nat) :
    Prop :=
  ∀ process, Spent process → ∃ after, code process = (result, after)
    ∧ KeepsSilent R size process after

theorem KeepsSilent.refl {process : Process ω Notes 1} (h : Spent process) :
    KeepsSilent R 0 process process :=
  ⟨h, rfl, fun hterminated => hterminated.resolve_right (Nat.lt_irrefl 0)⟩

theorem KeepsSilent.trans {size more : Nat} {before between after : Process ω Notes 1}
    (h : KeepsSilent R size before between) (h' : KeepsSilent R more between after) :
    KeepsSilent R (size + more) before after where
  spent := h'.spent
  records := h'.records.trans h.records
  terminated hterminated := by
    refine h'.terminated ?_
    rcases Nat.eq_zero_or_pos more with rfl | hmore
    · exact .inl (h.terminated hterminated)
    · exact .inr hmore

theorem IsSilent.bind {m : Code ω Notes 1 α} {f : α → Code ω Notes 1 β} {a : α}
    {result : Except Unit β} {size more : Nat} (hm : IsSilent R m (.ok a) size)
    (hf : IsSilent R (f a) result more) : IsSilent R (m >>= f) result (size + more) := by
  intro process hspent
  obtain ⟨between, hrun, hfirst⟩ := hm process hspent
  obtain ⟨after, hrun', hmore⟩ := hf between hfirst.spent
  exact ⟨after, by rw [bind_of_ok hrun, hrun'], hfirst.trans hmore⟩

theorem IsSilent.bind_panic {m : Code ω Notes 1 α} {size : Nat}
    (hm : IsSilent R m (.error ()) size) (f : α → Code ω Notes 1 β) :
    IsSilent R (m >>= f) (.error ()) size := by
  intro process hspent
  obtain ⟨after, hrun, hafter⟩ := hm process hspent
  exact ⟨after, bind_of_error hrun, hafter⟩

theorem IsSilent.catching {body : Code ω Notes 1 Unit} {result : Except Unit Unit} {size : Nat}
    (h : IsSilent R body result size) :
    IsSilent R (Code.catching body) (.ok (!result.isOk)) size := by
  intro process hspent
  obtain ⟨after, hrun, hafter⟩ := h process hspent
  exact ⟨after, by rw [Code.catching, hrun], hafter⟩

/-- Stopping the monitoring takes nothing back. -/
theorem records_terminate (hkeeps : ∀ writer, R.records (RecordWriter.terminate writer)
      = R.records writer) (controller : Controller ω) :
    R.records controller.terminate.2.writer = R.records controller.writer := by
  cases hterminated : controller.isTerminated with
  | true => rw [Controller.terminate_of_terminated hterminated]
  | false =>
    rw [Controller.terminate_of_running hterminated]
    exact hkeeps _

/-- **A call that gets no index stops the monitoring when it ends.** -/
theorem IsSilent.monitor (hkeeps : ∀ writer, R.records (RecordWriter.terminate writer)
      = R.records writer) (k : Fin 1) (component operation : String)
    {body : Code ω Notes 1 Unit} {result : Except Unit Unit} {size : Nat}
    (hbody : IsSilent R body result size) :
    IsSilent R (Code.monitor k component operation body) result (1 + size) := by
  obtain rfl : k = 0 := Subsingleton.elim _ _
  intro process hspent
  rcases hspent with hterminated | ⟨henabled, hactive, hmax⟩
  · obtain ⟨after, hrun, hafter⟩ := hbody process (.inl hterminated)
    have hdisabled : ¬ (process.controller 0).isEnabled = true := by
      simp [Controller.isEnabled, hterminated]
    refine ⟨after, ?_, hafter.spent, hafter.records,
      fun _ => hafter.terminated (.inl hterminated)⟩
    rw [Code.monitor, if_neg hdisabled, hrun]
  · obtain ⟨scope, context, henter, hvalid, hactive', hmax'⟩ :=
      (process.controller 0).ids.enter_of_eoi_eq_maxValue hactive hmax
    let entered := (process.time.2.setController 0
      { process.controller 0 with ids := (process.controller 0).ids }).withContext context
    have hentered : entered.controller 0 = process.controller 0 := by
      show (process.time.2.setController 0 _).controller 0 = _
      rw [Process.controller_setController, if_pos rfl]
    obtain ⟨between, hrun, hbetween⟩ := hbody entered
      (.inr ⟨by rw [hentered]; exact henabled, hactive', hmax'⟩)
    let pending : Pending := ⟨component, operation, process.time.1, scope⟩
    have hexit : (between.exit 0 pending).controller 0 = (between.controller 0).terminate.2 := by
      rw [between.exit_of_not_isValid 0 pending hvalid]
      show (between.time.2.setController 0 _).controller 0 = _
      rw [Process.controller_setController, if_pos rfl]
    have hterminated : ((between.exit 0 pending).controller 0).isTerminated = true := by
      rw [hexit]
      exact Controller.isTerminated_terminate _
    refine ⟨between.exit 0 pending, monitor_enabled henabled (Process.enter_eq henter) hrun,
      .inl hterminated, ?_, fun _ => hterminated⟩
    rw [hexit, records_terminate hkeeps, hbetween.records, hentered]

end Spent

/-! ## Running out of indices -/

section Exhaustion

variable {ω : Type} [RecordWriter ω] {R : Reliable ω} {α β : Type}

/-- The reports carry indices that a trace has, from the given one on. -/
def IndicesFrom (eoi : Nat) (reports : List (Fin 1 × Execution)) : Prop :=
  ∀ report ∈ reports, ∃ i, eoi ≤ i ∧ i < 2 ^ 31 ∧ report.2.eoi = .ofNat i

theorem IndicesFrom.append {eoi : Nat} {reports more : List (Fin 1 × Execution)}
    (h : IndicesFrom eoi reports) (h' : IndicesFrom eoi more) :
    IndicesFrom eoi (reports ++ more) :=
  List.forall_mem_append.mpr ⟨h, h'⟩

theorem IndicesFrom.mono {eoi later : Nat} {reports : List (Fin 1 × Execution)}
    (h : IndicesFrom later reports) (hle : eoi ≤ later) : IndicesFrom eoi reports := by
  intro report hreport
  obtain ⟨i, hi, hlt, heoi⟩ := h report hreport
  exact ⟨i, Nat.le_trans hle hi, hlt, heoi⟩

theorem indicesFrom_recorded (setting : Setting 1) (place : Place)
    {calls : CallForest (MadeCall 1)} (hlt : place.eoi + calls.size ≤ 2 ^ 31) :
    IndicesFrom place.eoi (recorded setting place calls).exits := by
  intro report hreport
  obtain ⟨between, made, inner, hle, hsize, rfl⟩ := exists_place_of_mem_recorded
    ((CallForest.exits_perm_entries _).mem_iff.mp hreport)
  exact ⟨between.eoi, hle, by omega, rfl⟩

/-- A part of a run for which the indices of the trace did not suffice has stopped the monitoring,
with a front part of its records written. -/
structure RunsOut (R : Reliable ω) (setting : Setting 1) (place : Place)
    (calls : CallForest (MadeCall 1)) (before after : Process ω Notes 1) : Prop where
  terminated : (after.controller 0).isTerminated = true
  writes : ∃ written, written <+: (recorded setting place calls).exits
    ∧ IndicesFrom place.eoi written
    ∧ R.records (after.controller 0).writer
      = R.records (before.controller 0).writer ++ reportsOf 0 written

/-- Wherever it runs within a trace that has too few indices left for its calls, the code runs out
of them. -/
def Exhausts (R : Reliable ω) (code : Code ω Notes 1 α) (result : Except Unit α)
    (calls : CallForest (MadeCall 1)) : Prop :=
  ∀ (setting : Setting 1) (place : Place) (process : Process ω Notes 1),
    StandsAt R setting place process → place.eoi < 2 ^ 31 → 2 ^ 31 ≤ place.eoi + calls.size →
    ∃ after, code process = (result, after) ∧ RunsOut R setting place calls process after

/-- What a piece of code does with the indices of a trace, whether or not they suffice. -/
structure Conducts (R : Reliable ω) (code : Code ω Notes 1 α) (result : Except Unit α)
    (calls : CallForest (MadeCall 1)) : Prop where
  settled : Settled calls
  makes : Makes R code result calls
  exhausts : Exhausts R code result calls
  silent : IsSilent R code result calls.size

/-- The first part may use the indices up, or leave too few of them for the second one. -/
theorem Conducts.bind {m : Code ω Notes 1 α} {f : α → Code ω Notes 1 β} {a : α}
    {result : Except Unit β} {calls more : CallForest (MadeCall 1)}
    (hm : Conducts R m (.ok a) calls) (hf : Conducts R (f a) result more) :
    Conducts R (m >>= f) result (calls.append more) where
  settled := hm.settled.append hf.settled
  makes := hm.makes.bind hf.makes
  silent := by
    rw [CallForest.size_append]
    exact hm.silent.bind hf.silent
  exhausts := by
    intro setting place process hstands hlt hle
    rw [CallForest.size_append] at hle
    by_cases hfits : place.eoi + calls.size < 2 ^ 31
    · obtain ⟨between, hrun, hbetween, hmade⟩ := hm.makes setting place process hstands hfits
      have heoi : (place.after calls).eoi = place.eoi + calls.size :=
        reached_of_settled hm.settled place.eoi
      obtain ⟨after, hrun', hterminated, written, hfront, hindices, hrecords⟩ :=
        hf.exhausts setting (place.after calls) between hbetween (by omega) (by omega)
      refine ⟨after, by rw [bind_of_ok hrun, hrun'], hterminated,
        (recorded setting place calls).exits ++ written, ?_,
        (indicesFrom_recorded setting place (by omega)).append (hindices.mono (by omega)), ?_⟩
      · rw [recorded_append, CallForest.exits_append]
        exact (List.prefix_append_right_inj _).mpr hfront
      · rw [hrecords, hmade.writes.records, List.append_assoc, reportsOf_append]
    · obtain ⟨between, hrun, hterminated, written, hfront, hindices, hrecords⟩ :=
        hm.exhausts setting place process hstands hlt (Nat.not_lt.mp hfits)
      obtain ⟨after, hrun', hafter⟩ := hf.silent between (.inl hterminated)
      refine ⟨after, by rw [bind_of_ok hrun, hrun'], hafter.terminated (.inl hterminated), written,
        ?_, hindices, by rw [hafter.records, hrecords]⟩
      rw [recorded_append, CallForest.exits_append]
      exact hfront.trans (List.prefix_append _ _)

theorem Conducts.bind_panic {m : Code ω Notes 1 α} {calls : CallForest (MadeCall 1)}
    (hm : Conducts R m (.error ()) calls) (f : α → Code ω Notes 1 β) :
    Conducts R (m >>= f) (.error ()) calls where
  settled := hm.settled
  makes := hm.makes.bind_panic f
  silent := hm.silent.bind_panic f
  exhausts := by
    intro setting place process hstands hlt hle
    obtain ⟨after, hrun, hafter⟩ := hm.exhausts setting place process hstands hlt hle
    exact ⟨after, bind_of_error hrun, hafter⟩

theorem Conducts.catching {body : Code ω Notes 1 Unit} {result : Except Unit Unit}
    {calls : CallForest (MadeCall 1)} (h : Conducts R body result calls) :
    Conducts R (Code.catching body) (.ok (!result.isOk)) calls where
  settled := h.settled
  makes := h.makes.catching
  silent := h.silent.catching
  exhausts := by
    intro setting place process hstands hlt hle
    obtain ⟨after, hrun, hafter⟩ := h.exhausts setting place process hstands hlt hle
    exact ⟨after, by rw [Code.catching, hrun], hafter⟩

/-- An execution that ends when the monitoring has stopped leaves no record. -/
theorem exit_of_terminated {process : Process ω Notes 1} {pending : Pending}
    (hvalid : pending.scope.isValid = true)
    (hterminated : (process.controller 0).isTerminated = true) :
    (process.exit 0 pending).controller 0 = process.controller 0 := by
  rw [process.exit_of_isValid 0 pending hvalid]
  show (process.time.2.setController 0 _).controller 0 = _
  rw [Process.controller_setController, if_pos rfl, Controller.accept,
    Controller.write_of_terminated hterminated]

/-- **A call with an index whose code runs out of them** has no record of its own. -/
theorem monitor_runsOut (made : MadeCall 1) {body : Code ω Notes 1 Unit}
    {result : Except Unit Unit} {calls : CallForest (MadeCall 1)} {setting : Setting 1}
    {place : Place} {process : Process ω Notes 1} {context : Context} {ids : TraceIds}
    {isEntry : Bool} (hbody : Exhausts R body result calls)
    (hat : IsAt R setting (place.enter made).session place.time context process)
    (henter : (process.controller made.controller).ids.enter context
      = (setting.scope place isEntry, ids, within setting.traceId (place.eoi + 1) (place.ess + 1)))
    (hlt : place.eoi + 1 < 2 ^ 31) (hle : 2 ^ 31 ≤ place.eoi + (1 + calls.size)) :
    ∃ after, Code.monitor made.controller made.component made.operation body process
        = (result, after)
      ∧ RunsOut R setting (place.enter made) calls process after
      ∧ ∃ left, after.thread.context = (setting.scope place isEntry).leave left := by
  obtain ⟨entered, hentered, hstands, hquiet, -⟩ := enter_standsAt made hat henter
  obtain ⟨between, hrun, hterminated, written, hfront, hindices, hrecords⟩ :=
    hbody setting (place.enter made) entered hstands hlt (by
      show 2 ^ 31 ≤ place.eoi + 1 + calls.size
      omega)
  let pending : Pending :=
    ⟨made.component, made.operation, process.time.1, setting.scope place isEntry⟩
  have hplace := place.le
  have hvalid : pending.scope.isValid = true :=
    Scope.isValid_within setting.nonneg (by omega) (by omega) isEntry
  have hexit := exit_of_terminated hvalid hterminated
  have hk : made.controller = 0 := Subsingleton.elim _ _
  refine ⟨between.exit made.controller pending,
    monitor_enabled (hat.ready _).enabled hentered hrun, ⟨?_, written, hfront, hindices, ?_⟩, ?_⟩
  · rw [hk, hexit]
    exact hterminated
  · have hbefore := hquiet.records 0
    rw [reportsOf, List.filter_nil, List.map_nil, List.append_nil] at hbefore
    rw [hk, hexit, hrecords, hbefore]
  · rw [between.exit_of_isValid made.controller pending hvalid]
    exact ⟨_, rfl⟩

theorem eq_maxValue {eoi : Nat} (hlt : eoi < 2 ^ 31) (hlast : ¬ eoi + 1 < 2 ^ 31) :
    Int32.ofNat eoi = Int32.maxValue := by
  obtain rfl : eoi = 2 ^ 31 - 1 := by omega
  rfl

theorem Conducts.monitor (hkeeps : ∀ writer, R.records (RecordWriter.terminate writer)
      = R.records writer) (made : MadeCall 1) {body : Code ω Notes 1 Unit}
    {result : Except Unit Unit} {calls : CallForest (MadeCall 1)}
    (hbody : Conducts R body result calls) (hlocal : made.isRemote = false)
    (hkept : made.isLost = false) :
    Conducts R (Code.monitor made.controller made.component made.operation body) result
      (.call made calls .none) where
  settled := ⟨by simp [hkept], hbody.settled, trivial⟩
  makes := hbody.makes.monitor made hlocal hkept
  silent := hbody.silent.monitor hkeeps made.controller made.component made.operation
  exhausts := by
    intro setting place process hstands hlt hle
    rw [CallForest.size, CallForest.size, Nat.add_zero] at hle
    by_cases hindex : place.eoi + 1 < 2 ^ 31
    · have hsession : (place.enter made).session = place.session := by
        simp [Place.enter, hlocal]
      obtain ⟨after, hrun, ⟨hterminated, written, hfront, hindices, hrecords⟩, -⟩ :=
        monitor_runsOut made hbody.exhausts
          (show IsAt R setting (place.enter made).session _ _ _ by rw [hsession]; exact hstands)
          (enter_place _ hindex) hindex hle
      refine ⟨after, hrun, hterminated, written, ?_, hindices.mono (Nat.le_succ _), hrecords⟩
      exact hfront.trans (List.prefix_append _ _)
    -- the call itself is the first one that gets no index
    · have hspent : Spent process := by
        refine .inr ⟨(hstands.ready 0).enabled, ?_, ?_⟩
        · rw [hstands.context]
          exact Context.isActive_within setting.nonneg
        · rw [hstands.context]
          exact eq_maxValue hlt hindex
      obtain ⟨after, hrun, hafter⟩ := hbody.silent.monitor hkeeps made.controller made.component
        made.operation process hspent
      refine ⟨after, hrun, hafter.terminated (.inr (by omega)), [], List.nil_prefix,
        List.forall_mem_nil _, ?_⟩
      rw [hafter.records]
      exact (List.append_nil _).symm

section Whole

variable (process : Process ω Notes 1) (root : Callee 1) (body : Program 1)
  (nonneg : ¬ (process.controller root.controller).ids.next < 0)

end Whole

end Exhaustion

end CallTrace.Monitoring
