import CallTrace.Proofs.Stages.TraceReconstruction

/-!
# No execution is lost or doubled

Whatever executions arrive, and whichever way their traces are finished, all that the stage has
taken in it has given out or still holds (`Accounts`), and in the end it holds nothing
(`conservation`). The order in which traces that have run out of time are finished makes no
difference to the stage and only reorders what it gives out (`releaseExpired_perm`).
-/

namespace CallTrace

open Trace (executionsOf)
open Pipeline (Callback Ending Event)

namespace TraceReconstruction

variable {stage after : TraceReconstruction} {id : Int64}

/-! ## Groups -/

/-- Executions that were finished together. -/
structure Group where
  id : Int64
  executions : List Execution

namespace Group

/-- Whether the executions form a call tree. -/
def isValid (group : Group) : Bool := (Trace.reconstruct group.id group.executions).toBool

/-- What is given out for a group, and of an invalid one only if that is wanted. -/
def outputs (emitsInvalid : Bool) (group : Group) : List Output :=
  match Trace.reconstruct group.id group.executions with
  | .ok trace => .trace trace :: trace.calls.map .call
  | .error _ => if emitsInvalid then group.executions.map .invalid else []

end Group

/-- The executions that the stage holds of a trace. -/
def held (stage : TraceReconstruction) (id : Int64) : List Execution :=
  stage.pending[id]?.elim [] (·.executions)

theorem held_accept (stage : TraceReconstruction) (e : Execution) (id : Int64) :
    (stage.accept e).held id = stage.held id ++ executionsOf id [e] := by
  rw [held, accept, held, executionsOf, List.filter_singleton]
  simp only [Std.ExtTreeMap.getElem?_insert, Std.LawfulEqCmp.compare_eq_iff_eq]
  by_cases hsame : e.traceId = id
  · subst hsame
    simp only [if_true, decide_true]
    cases stage.pending[e.traceId]? <;> rfl
  · simp [hsame]

theorem getElem?_erase_pending (stage : TraceReconstruction) (id other : Int64) :
    (stage.pending.erase id)[other]? = if id = other then none else stage.pending[other]? := by
  simp only [Std.ExtTreeMap.getElem?_erase, Std.LawfulEqCmp.compare_eq_iff_eq]

/-! ## Finishing one trace -/

/-- A trace that is held leaves with its executions and is counted once. -/
theorem release_eq {pending : PendingTrace} (hpending : stage.pending[id]? = some pending) :
    let group : Group := { id, executions := pending.executions }
    stage.release id = (group.outputs stage.emitsInvalid,
      { stage with
        pending := stage.pending.erase id
        valid := stage.valid + if group.isValid then 1 else 0
        invalid := stage.invalid + if group.isValid then 0 else 1 }) := by
  intro group
  have hcase : stage.release id
      = { stage with pending := stage.pending.erase id }.finish id pending.executions := by
    rw [release, hpending]
  rw [hcase, finish]
  unfold Group.outputs Group.isValid
  dsimp only [group]
  split <;> simp [Except.toBool, *]

theorem release_of_none (h : stage.pending[id]? = none) : stage.release id = ([], stage) := by
  rw [release, h]

/-! ## The order of finishing -/

/-- Finishes a trace that has run out of time. -/
def expire (stage : TraceReconstruction) (id : Int64) : List Output × TraceReconstruction :=
  (stage.countTimeout id).release id

theorem expire_eq {pending : PendingTrace} (hpending : stage.pending[id]? = some pending) :
    let group : Group := { id, executions := pending.executions }
    stage.expire id = (group.outputs stage.emitsInvalid,
      { stage with
        pending := stage.pending.erase id
        valid := stage.valid + if group.isValid then 1 else 0
        invalid := stage.invalid + if group.isValid then 0 else 1
        timedOut := stage.timedOut + if pending.isComplete then 0 else 1 }) := by
  intro group
  have hcount : stage.countTimeout id
      = { stage with timedOut := stage.timedOut + if pending.isComplete then 0 else 1 } := by
    rw [countTimeout, hpending]
    dsimp only
    split <;> simp
  rw [expire, hcount]
  exact release_eq hpending

theorem expire_of_none (h : stage.pending[id]? = none) : stage.expire id = ([], stage) := by
  rw [expire, countTimeout, h]
  exact release_of_none h

theorem releaseExpired_cons (stage : TraceReconstruction) (id : Int64) (ids : List Int64) :
    stage.releaseExpired (id :: ids)
      = ((stage.expire id).1 ++ ((stage.expire id).2.releaseExpired ids).1,
          ((stage.expire id).2.releaseExpired ids).2) :=
  rfl

theorem pending_erase_comm (m : Std.ExtTreeMap Int64 PendingTrace) (a b : Int64) :
    (m.erase a).erase b = (m.erase b).erase a := by
  refine Std.ExtTreeMap.ext_getElem? fun id => ?_
  simp only [Std.ExtTreeMap.getElem?_erase]
  split <;> split <;> rfl

/-- Two traces may be finished in either order. -/
theorem expire_expire (stage : TraceReconstruction) {a b : Int64} (hne : a ≠ b) :
    ((stage.expire a).2.expire b).2 = ((stage.expire b).2.expire a).2
      ∧ ((stage.expire a).2.expire b).1 = (stage.expire b).1
      ∧ ((stage.expire b).2.expire a).1 = (stage.expire a).1 := by
  have hab : ∀ {a b : Int64}, a ≠ b → (stage.pending.erase a)[b]? = stage.pending[b]? :=
    fun hne => (stage.getElem?_erase_pending _ _).trans (if_neg hne)
  cases ha : stage.pending[a]? with
  | none =>
    rw [expire_of_none ha]
    cases hb : stage.pending[b]? with
    | none =>
      rw [expire_of_none hb, expire_of_none ha]
      exact ⟨rfl, rfl, rfl⟩
    | some other =>
      rw [expire_eq hb, expire_of_none ((hab hne.symm).trans ha)]
      exact ⟨rfl, rfl, rfl⟩
  | some pending =>
    cases hb : stage.pending[b]? with
    | none =>
      rw [expire_eq ha, expire_of_none hb, expire_of_none ((hab hne).trans hb), expire_eq ha]
      exact ⟨rfl, rfl, rfl⟩
    | some other =>
      rw [expire_eq ha, expire_eq hb, expire_eq ((hab hne).trans hb),
        expire_eq ((hab hne.symm).trans ha)]
      refine ⟨?_, rfl, rfl⟩
      simp only [pending_erase_comm stage.pending a b]
      congr 1 <;> ac_rfl

/-- **The order of finishing makes no difference** to the stage, and only reorders what is given
out. -/
theorem releaseExpired_perm {ids others : List Int64} (h : ids.Perm others)
    (stage : TraceReconstruction) :
    (stage.releaseExpired ids).2 = (stage.releaseExpired others).2
      ∧ (stage.releaseExpired ids).1.Perm (stage.releaseExpired others).1 := by
  induction h generalizing stage with
  | nil => exact ⟨rfl, .refl _⟩
  | cons id _ ih =>
    obtain ⟨hstage, houtputs⟩ := ih (stage.expire id).2
    exact ⟨hstage, houtputs.append_left _⟩
  | swap a b ids =>
    rcases eq_or_ne b a with rfl | hne
    · exact ⟨rfl, .refl _⟩
    · obtain ⟨hstage, hfirst, hsecond⟩ := stage.expire_expire hne
      simp only [releaseExpired_cons, hstage, hfirst, hsecond, ← List.append_assoc]
      exact ⟨trivial, List.perm_append_comm.append_right _⟩
  | trans _ _ ihfirst ihsecond =>
    exact ⟨(ihfirst stage).1.trans (ihsecond stage).1, (ihfirst stage).2.trans (ihsecond stage).2⟩

/-! ## Accounts -/

/-- What was received has been finished in groups or is still held, trace by trace in the order of
arrival, and the groups are counted. -/
structure Accounts (stage : TraceReconstruction) (received : List Execution)
    (finished : List Group) : Prop where
  balance : ∀ id, executionsOf id (finished.flatMap (·.executions)) ++ stage.held id
    = executionsOf id received
  valid : stage.valid = UInt64.ofNat (finished.countP (·.isValid))
  invalid : stage.invalid = UInt64.ofNat (finished.countP (! ·.isValid))

variable {received : List Execution} {finished : List Group}

theorem accounts_ofWindow (window : Int64) (emitsInvalid settles : Bool) :
    (ofWindow window emitsInvalid settles).Accounts [] [] :=
  ⟨by simp [executionsOf, held, ofWindow], rfl, rfl⟩

/-- The executions held of a trace belong to it. -/
theorem Accounts.traceId_eq (h : stage.Accounts received finished) {e : Execution}
    (he : e ∈ stage.held id) : e.traceId = id := by
  have hmem : e ∈ executionsOf id received := h.balance id ▸ List.mem_append_right _ he
  exact of_decide_eq_true (List.mem_filter.mp hmem).2

theorem Accounts.accept (h : stage.Accounts received finished) (e : Execution) :
    (stage.accept e).Accounts (received ++ [e]) finished := by
  refine ⟨fun id => ?_, h.valid, h.invalid⟩
  rw [Trace.executionsOf_append, ← h.balance, List.append_assoc, held_accept]

/-! ## What leaves the stage -/

/-- From one state of the stage to another one some groups are finished, each of which was held
before, and nothing else changes in the accounts. -/
structure Leaves (stage after : TraceReconstruction) (outputs : List Output)
    (groups : List Group) : Prop where
  emitsInvalid : after.emitsInvalid = stage.emitsInvalid
  outputs_eq : outputs = groups.flatMap (·.outputs stage.emitsInvalid)
  size : after.pending.size + groups.length = stage.pending.size
  accounts : ∀ received finished, stage.Accounts received finished →
    after.Accounts received (finished ++ groups)

namespace Leaves

variable {between : TraceReconstruction} {first later : List Output} {groups more : List Group}

theorem refl (stage : TraceReconstruction) : Leaves stage stage [] [] :=
  ⟨rfl, rfl, rfl, fun _ finished h => (List.append_nil finished).symm ▸ h⟩

theorem trans (h : Leaves stage between first groups) (hlater : Leaves between after later more) :
    Leaves stage after (first ++ later) (groups ++ more) where
  emitsInvalid := hlater.emitsInvalid.trans h.emitsInvalid
  outputs_eq := by rw [h.outputs_eq, hlater.outputs_eq, h.emitsInvalid, List.flatMap_append]
  size := by
    have hfirst := h.size
    have hsecond := hlater.size
    rw [List.length_append]
    omega
  accounts received finished haccounts := by
    rw [← List.append_assoc]
    exact hlater.accounts _ _ (h.accounts _ _ haccounts)

end Leaves

/-- A trace that leaves moves its executions from what is held to what is finished. -/
theorem Accounts.finish (h : stage.Accounts received finished) {pending : PendingTrace}
    (hpending : stage.pending[id]? = some pending) {group : Group}
    (hgroup : group = { id, executions := pending.executions })
    (hvalid : after.valid = stage.valid + if group.isValid then 1 else 0)
    (hinvalid : after.invalid = stage.invalid + if group.isValid then 0 else 1)
    (herase : after.pending = stage.pending.erase id) :
    after.Accounts received (finished ++ [group]) := by
  have hheld : stage.held id = pending.executions := by rw [held, hpending, Option.elim_some]
  refine ⟨fun other => ?_, ?_, ?_⟩
  · have hafter : after.held other = if id = other then [] else stage.held other := by
      rw [held, herase, getElem?_erase_pending]
      split <;> rfl
    have hthese : executionsOf other group.executions
        = if id = other then pending.executions else [] := by
      rw [hgroup, ← hheld]
      split
      · next hsame =>
        exact List.filter_eq_self.mpr fun e he =>
          decide_eq_true ((h.traceId_eq he).trans hsame)
      · next hne =>
        exact List.filter_eq_nil_iff.mpr fun e he htrace =>
          hne ((h.traceId_eq he).symm.trans (of_decide_eq_true htrace))
    rw [← h.balance other, List.flatMap_append, List.flatMap_singleton,
      Trace.executionsOf_append, hthese, hafter, List.append_assoc]
    split
    · next hsame => rw [← hsame, hheld, List.append_nil]
    · rfl
  · rw [hvalid, h.valid, List.countP_append, UInt64.ofNat_add, List.countP_singleton]
    split <;> rfl
  · rw [hinvalid, h.invalid, List.countP_append, UInt64.ofNat_add, List.countP_singleton]
    cases group.isValid <;> rfl

theorem size_erase_add_one {m : Std.ExtTreeMap Int64 PendingTrace} {pending : PendingTrace}
    (h : m[id]? = some pending) : (m.erase id).size + 1 = m.size := by
  have hmem : id ∈ m := Std.ExtTreeMap.isSome_getElem?_iff_mem.mp (by rw [h]; rfl)
  have hpos : m.size ≠ 0 := fun hzero => by
    rw [Std.ExtTreeMap.eq_empty_iff_size_eq_zero.mpr hzero] at hmem
    exact Std.ExtTreeMap.not_mem_empty hmem
  rw [Std.ExtTreeMap.size_erase, if_pos (Std.ExtTreeMap.contains_iff_mem.mpr hmem)]
  omega

theorem exists_leaves_release (stage : TraceReconstruction) (id : Int64) :
    ∃ groups, Leaves stage (stage.release id).2 (stage.release id).1 groups := by
  cases hpending : stage.pending[id]? with
  | none =>
    rw [release_of_none hpending]
    exact ⟨[], .refl stage⟩
  | some pending =>
    rw [release_eq hpending]
    exact ⟨[{ id, executions := pending.executions }], rfl, by simp, size_erase_add_one hpending,
      fun _ _ h => h.finish hpending rfl rfl rfl rfl⟩

theorem leaves_countTimeout (stage : TraceReconstruction) (id : Int64) :
    Leaves stage (stage.countTimeout id) [] [] := by
  obtain ⟨timedOut, heq⟩ := exists_countTimeout_eq stage id
  rw [heq]
  refine ⟨rfl, rfl, rfl, fun received finished h => ?_⟩
  rw [List.append_nil]
  exact ⟨h.balance, h.valid, h.invalid⟩

theorem exists_leaves_releaseExpired (stage : TraceReconstruction) (ids : List Int64) :
    ∃ groups, Leaves stage (stage.releaseExpired ids).2 (stage.releaseExpired ids).1 groups := by
  induction ids generalizing stage with
  | nil => exact ⟨[], .refl stage⟩
  | cons id ids ih =>
    obtain ⟨first, hfirst⟩ := exists_leaves_release (stage.countTimeout id) id
    obtain ⟨more, hmore⟩ := ih (stage.expire id).2
    exact ⟨_, ((leaves_countTimeout stage id).trans hfirst).trans hmore⟩

theorem exists_leaves_releaseAll (stage : TraceReconstruction) (ids : List Int64) :
    ∃ groups, Leaves stage (stage.releaseAll ids).2 (stage.releaseAll ids).1 groups := by
  induction ids generalizing stage with
  | nil => exact ⟨[], .refl stage⟩
  | cons id ids ih =>
    obtain ⟨first, hfirst⟩ := exists_leaves_release stage id
    obtain ⟨more, hmore⟩ := ih (stage.release id).2
    exact ⟨_, hfirst.trans hmore⟩

theorem exists_leaves_releaseComplete (stage : TraceReconstruction) (id : Int64) :
    ∃ groups, Leaves stage (stage.releaseComplete id).2 (stage.releaseComplete id).1 groups := by
  unfold releaseComplete
  split
  · split
    · exact exists_leaves_release stage id
    · exact ⟨[], .refl stage⟩
  · exact ⟨[], .refl stage⟩

theorem pending_release (stage : TraceReconstruction) (id : Int64) :
    (stage.release id).2.pending = stage.pending.erase id := by
  cases hpending : stage.pending[id]? with
  | some pending => rw [release_eq hpending]
  | none =>
    rw [release_of_none hpending]
    refine Std.ExtTreeMap.ext_getElem? fun other => ?_
    rw [getElem?_erase_pending]
    split
    · next hsame => rw [← hsame, hpending]
    · rfl

theorem notMem_releaseAll {ids : List Int64} (h : id ∈ ids ∨ id ∉ stage.pending) :
    id ∉ (stage.releaseAll ids).2.pending := by
  induction ids generalizing stage with
  | nil => exact h.resolve_left List.not_mem_nil
  | cons other ids ih =>
    refine @ih (stage.release other).2 ?_
    rw [pending_release, Std.ExtTreeMap.mem_erase]
    rcases h with hid | hnot
    · rcases List.mem_cons.mp hid with rfl | hid
      · exact .inr fun hmem => hmem.1 (Std.LawfulEqCmp.compare_eq_iff_eq.mpr rfl)
      · exact .inl hid
    · exact .inr fun hmem => hnot hmem.2

/-- In the end nothing is held. -/
theorem pending_close (stage : TraceReconstruction) : stage.close.2.pending = ∅ := by
  refine Std.ExtTreeMap.ext_getElem? fun id => ?_
  rw [Std.ExtTreeMap.getElem?_empty, getElem?_eq_none_iff]
  refine notMem_releaseAll ?_
  rw [Std.ExtTreeMap.mem_keys]
  exact Decidable.em _

/-! ## Runs -/

/-- How the stage handles an event, in whatever order it visits the traces that have run out of
time: what it gives out, how many groups it finishes, and what becomes of it. -/
inductive Handles (stage : TraceReconstruction) :
    Event → List Output → Nat → TraceReconstruction → Prop
  | ignored {event : Event} (h : ∀ e, event.execution? = some e → ¬ e.isCorrelated) :
    Handles stage event [] 0 stage
  | collected {e : Execution} {completed expired : List Output} {between last : TraceReconstruction}
    {ids : List Int64} (h : e.isCorrelated)
    (hcompleted : (stage.accept e).releaseComplete e.traceId = (completed, between))
    (hids : ids.Perm between.expired) (hexpired : between.releaseExpired ids = (expired, last)) :
    Handles stage (.record (.execution e)) (completed ++ expired)
      ((stage.accept e).pending.size - last.pending.size) last

/-- How the stage handles one event after the other. -/
inductive Runs :
    TraceReconstruction → List Event → List Output → Nat → TraceReconstruction → Prop
  | nil {s} : Runs s [] [] 0 s
  | cons {s between s' event events first later left count}
    (hfirst : Handles s event first left between) (hlater : Runs between events later count s') :
    Runs s (event :: events) (first ++ later) (left + count) s'

/-- The executions with correlation data among events. -/
def receivedFrom (events : List Event) : List Execution :=
  (events.filterMap Event.execution?).filter (·.isCorrelated)

theorem receivedFrom_cons (event : Event) (events : List Event) :
    receivedFrom (event :: events) = receivedFrom [event] ++ receivedFrom events := by
  simp only [receivedFrom, ← List.filter_append, ← List.filterMap_append, List.singleton_append]

variable {event : Event} {events : List Event} {outputs : List Output} {left : Nat}

theorem receivedFrom_of_ignored (h : ∀ e, event.execution? = some e → ¬ e.isCorrelated) :
    receivedFrom [event] = [] := by
  refine List.filter_eq_nil_iff.mpr fun e he => ?_
  simp only [List.mem_filterMap, List.mem_singleton, exists_eq_left] at he
  exact h e he

theorem receivedFrom_of_correlated {e : Execution} (h : e.isCorrelated) :
    receivedFrom [.record (.execution e)] = [e] :=
  List.filter_eq_self.mpr (by simpa [Event.execution?, Event.record?, Record.execution?] using h)

theorem Handles.accounts (h : Handles stage event outputs left after)
    (hstage : stage.Accounts received finished) :
    ∃ groups, after.Accounts (received ++ receivedFrom [event]) (finished ++ groups)
      ∧ after.emitsInvalid = stage.emitsInvalid
      ∧ outputs = groups.flatMap (·.outputs stage.emitsInvalid) ∧ groups.length = left := by
  cases h with
  | ignored h =>
    rw [receivedFrom_of_ignored h, List.append_nil]
    exact ⟨[], (List.append_nil finished).symm ▸ hstage, rfl, rfl, rfl⟩
  | @collected e completed expired between _ ids hcorrelated hcompleted hids hexpired =>
    obtain ⟨first, hfirst⟩ := exists_leaves_releaseComplete (stage.accept e) e.traceId
    rw [hcompleted] at hfirst
    obtain ⟨later, hlater⟩ := exists_leaves_releaseExpired between ids
    rw [hexpired] at hlater
    have hall := hfirst.trans hlater
    rw [receivedFrom_of_correlated hcorrelated]
    refine ⟨_, hall.accounts _ _ (hstage.accept e), hall.emitsInvalid, hall.outputs_eq, ?_⟩
    have hsize : after.pending.size + (first ++ later).length = (stage.accept e).pending.size :=
      hall.size
    omega

theorem Runs.accounts (h : Runs stage events outputs left after)
    (hstage : stage.Accounts received finished) :
    ∃ groups, after.Accounts (received ++ receivedFrom events) (finished ++ groups)
      ∧ after.emitsInvalid = stage.emitsInvalid
      ∧ outputs = groups.flatMap (·.outputs stage.emitsInvalid) ∧ groups.length = left := by
  induction h generalizing received finished with
  | nil =>
    refine ⟨[], ?_, rfl, rfl, rfl⟩
    simpa [receivedFrom] using hstage
  | @cons _ _ _ event events _ _ _ _ hfirst _ ih =>
    obtain ⟨first, haccounts, hemits, rfl, rfl⟩ := hfirst.accounts hstage
    obtain ⟨later, hafter, hemits', rfl, rfl⟩ := ih haccounts
    refine ⟨first ++ later, ?_, hemits'.trans hemits, ?_, List.length_append⟩
    · rw [receivedFrom_cons, ← List.append_assoc, ← List.append_assoc]
      exact hafter
    · rw [List.flatMap_append, hemits]

/-- Two ways to handle an event differ at most in the order of what is given out. -/
theorem Handles.unique (h : Handles stage event outputs left after) {others : List Output}
    {count : Nat} {other : TraceReconstruction} (hother : Handles stage event others count other) :
    other = after ∧ count = left ∧ others.Perm outputs := by
  cases h with
  | ignored h =>
    cases hother with
    | ignored _ => exact ⟨rfl, rfl, .refl _⟩
    | collected hcorrelated => exact absurd hcorrelated (h _ rfl)
  | collected hcorrelated hcompleted hids hexpired =>
    cases hother with
    | ignored h => exact absurd hcorrelated (h _ rfl)
    | collected _ hcompleted' hids' hexpired' =>
      obtain ⟨rfl, rfl⟩ := Prod.mk.inj (hcompleted.symm.trans hcompleted')
      obtain ⟨hstage, houtputs⟩ := releaseExpired_perm (hids'.trans hids.symm) _
      rw [hexpired, hexpired'] at hstage houtputs
      obtain rfl : other = after := hstage
      exact ⟨rfl, rfl, houtputs.append_left _⟩

theorem Runs.unique (h : Runs stage events outputs left after) {others : List Output}
    {count : Nat} {other : TraceReconstruction} (hother : Runs stage events others count other) :
    other = after ∧ count = left ∧ others.Perm outputs := by
  induction h generalizing others count other with
  | nil =>
    cases hother
    exact ⟨rfl, rfl, .refl _⟩
  | cons hfirst _ ih =>
    cases hother with
    | cons hfirst' hlater' =>
      obtain ⟨rfl, rfl, hperm⟩ := hfirst.unique hfirst'
      obtain ⟨rfl, rfl, hmore⟩ := ih hlater'
      exact ⟨rfl, rfl, hperm.append hmore⟩

/-! ## Callbacks -/

/-- The callbacks for one event after the other, each at its port. -/
def onEvents : List (String × Event) → TraceReconstruction → Callback World TraceReconstruction
  | [], stage => return stage
  | (port, event) :: inputs, stage => do
    let (_, stage) ← onEvent port event stage
    onEvents inputs stage

/-- A callback that gives out what the stage gives out, and a result. -/
def giving {α : Type} (outputs : List Output) (result : α) : Callback World α := do
  Callback.sendAll (outputs.map (·.emission))
  return result

theorem giving_bind {α β : Type} {outputs more : List Output} {value : α} {result : β}
    {f : α → Callback World β} (h : f value = giving more result) :
    giving outputs value >>= f = giving (outputs ++ more) result := by
  induction outputs with
  | nil => exact h
  | cons output outputs ih =>
    exact congrArg (fun rest : Callback World β =>
      Callback.emit output.emission.1 output.emission.2 fun _ => rest) ih

theorem exists_handles_onEvent (port : String) (event : Event) (stage : TraceReconstruction) :
    ∃ ending outputs left after, Handles stage event outputs left after
      ∧ onEvent port event stage = giving outputs (ending, after) := by
  have hignored : (∀ e, event.execution? = some e → ¬ e.isCorrelated) →
      ∀ ending : Ending, onEvent port event stage = giving [] (ending, stage) →
      ∃ ending outputs left after, Handles stage event outputs left after
        ∧ onEvent port event stage = giving outputs (ending, after) :=
    fun h ending heq => ⟨ending, [], 0, stage, .ignored h, heq⟩
  match event with
  | .record (.branching _) => exact hignored nofun .returned rfl
  | .trace _ | .call _ | .dataflow _ => exact hignored nofun _ rfl
  | .record (.execution e) =>
    by_cases hcorrelated : e.isCorrelated
    · refine ⟨.returned, _, _, _, .collected hcorrelated rfl (.refl _) rfl, ?_⟩
      rw [onEvent, onExecution, if_pos hcorrelated]
      rfl
    · refine hignored ?_ .returned ?_
      · intro e' he'
        obtain rfl : e = e' := Option.some.inj he'
        exact hcorrelated
      · rw [onEvent, onExecution, if_neg hcorrelated]
        rfl

theorem exists_runs_onEvents (inputs : List (String × Event)) (stage : TraceReconstruction) :
    ∃ outputs left after, Runs stage (inputs.map (·.2)) outputs left after
      ∧ onEvents inputs stage = giving outputs after := by
  induction inputs generalizing stage with
  | nil => exact ⟨[], 0, stage, .nil, rfl⟩
  | cons input inputs ih =>
    obtain ⟨port, event⟩ := input
    obtain ⟨ending, first, left, between, hfirst, heq⟩ := exists_handles_onEvent port event stage
    obtain ⟨later, count, after, hlater, hmore⟩ := ih between
    refine ⟨_, _, _, .cons hfirst hlater, ?_⟩
    rw [onEvents, heq]
    exact giving_bind hmore

/-! ## What is given out -/

/-- Traces, each directly followed by its calls, and executions of invalid traces. There are no
other calls. -/
inductive CallsFollow : List Output → Prop
  | nil : CallsFollow []
  | trace {trace rest} (h : CallsFollow rest) :
    CallsFollow (.trace trace :: (trace.calls.map .call ++ rest))
  | invalid {execution rest} (h : CallsFollow rest) : CallsFollow (.invalid execution :: rest)

/-- The executions that an output contains. -/
def Output.executions : Output → List Execution
  | trace t => t.executions
  | call _ => []
  | invalid e => [e]

/-- Whether an output is a trace. -/
def Output.isTrace : Output → Bool
  | trace _ => true
  | _ => false

theorem callsFollow_flatMap (emitsInvalid : Bool) (groups : List Group) :
    CallsFollow (groups.flatMap (·.outputs emitsInvalid)) := by
  have hinvalid : ∀ (executions : List Execution) {rest : List Output}, CallsFollow rest →
      CallsFollow (executions.map .invalid ++ rest) := by
    intro executions rest h
    induction executions with
    | nil => exact h
    | cons e executions ih => exact .invalid ih
  induction groups with
  | nil => exact .nil
  | cons group groups ih =>
    rw [List.flatMap_cons, Group.outputs]
    split
    · exact .trace ih
    · split
      · exact hinvalid _ ih
      · exact ih

/-- All executions of a group are given out once, in one way or the other. -/
theorem Group.executions_outputs (group : Group) :
    ((group.outputs true).flatMap Output.executions).Perm group.executions := by
  unfold Group.outputs
  split
  · next trace h =>
    have hcalls : (trace.calls.map Output.call).flatMap Output.executions = [] := by
      simp [List.flatMap_map, Output.executions]
    rw [List.flatMap_cons, hcalls, List.append_nil, Output.executions,
      Trace.executions_eq_of_reconstruct h]
    exact List.mergeSort_perm _ _
  · simp [List.flatMap_map, Output.executions]

/-- A group gives out a trace if it is valid. -/
theorem Group.countP_isTrace (group : Group) (emitsInvalid : Bool) :
    (group.outputs emitsInvalid).countP Output.isTrace = if group.isValid then 1 else 0 := by
  unfold Group.outputs Group.isValid
  split
  · next trace h =>
    rw [h, List.countP_cons, List.countP_map]
    simp [Function.comp_def, Output.isTrace, Except.toBool]
  · next fault h =>
    rw [h]
    split <;> simp [List.countP_map, Function.comp_def, Output.isTrace, Except.toBool]

theorem inEntryOrder_of_mem_outputs {groups : List Group} {emitsInvalid : Bool} {trace : Trace}
    (h : .trace trace ∈ groups.flatMap (·.outputs emitsInvalid)) : trace.InEntryOrder := by
  obtain ⟨group, _, hmem⟩ := List.mem_flatMap.mp h
  unfold Group.outputs at hmem
  split at hmem
  · next built hbuilt =>
    obtain rfl : trace = built := by simpa using hmem
    exact (Trace.builds_of_reconstruct hbuilt).inEntryOrder
  · split at hmem <;> simp at hmem

/-- Balanced accounts in which nothing is held any more. -/
theorem Accounts.perm (h : stage.Accounts received finished) (hpending : stage.pending = ∅) :
    (finished.flatMap (·.executions)).Perm received := by
  refine List.perm_iff_count.mpr fun e => ?_
  have hbalance := congrArg (List.count e) (h.balance e.traceId)
  rw [held, hpending, Std.ExtTreeMap.getElem?_empty, Option.elim_none, List.append_nil,
    executionsOf, executionsOf, List.count_filter (by simp), List.count_filter (by simp)]
    at hbalance
  exact hbalance

theorem countP_isTrace_flatMap (groups : List Group) (emitsInvalid : Bool) :
    (groups.flatMap (·.outputs emitsInvalid)).countP Output.isTrace
      = groups.countP (·.isValid) := by
  induction groups with
  | nil => rfl
  | cons group groups ih =>
    rw [List.flatMap_cons, List.countP_append, group.countP_isTrace, ih, List.countP_cons,
      Nat.add_comm]

theorem executions_flatMap_perm (groups : List Group) :
    ((groups.flatMap (·.outputs true)).flatMap Output.executions).Perm
      (groups.flatMap (·.executions)) := by
  induction groups with
  | nil => exact .refl _
  | cons group groups ih =>
    rw [List.flatMap_cons, List.flatMap_append, List.flatMap_cons]
    exact group.executions_outputs.append ih

/-! ## Main statement -/

/-- **No execution is lost or doubled.** A stage that passes on the executions of invalid traces
handles any events at any ports and then terminates. In whatever order it visits the traces that
have run out of time each time,

* the executions in the traces and those passed on are the executions with correlation data that
  were received, each as often;
* every trace is directly followed by its calls, and these tell of all its executions but the root,
  in the order of entry;
* as many traces are counted as valid as are given out, and as many traces are counted as there are
  groups that were held and are not any more;
* nothing is held in the end;
* any other order gives the same stage and the same outputs, in another order at most.

The callbacks visit them in one of these orders. -/
theorem conservation (window : Int64) (settles : Bool) (inputs : List (String × Event)) :
    let start := ofWindow window true settles
    let events := inputs.map (·.2)
    (∃ outputs left stage, Runs start events outputs left stage
      ∧ (do onTerminate (← onEvents inputs start))
        = giving (outputs ++ stage.close.1) (.returned, stage.close.2))
    ∧ ∀ outputs left stage, Runs start events outputs left stage →
      let all := outputs ++ stage.close.1
      let closed := stage.close.2
      (all.flatMap Output.executions).Perm (receivedFrom events)
      ∧ CallsFollow all ∧ (∀ trace, .trace trace ∈ all → trace.InEntryOrder)
      ∧ closed.valid = UInt64.ofNat (all.countP Output.isTrace)
      ∧ closed.valid + closed.invalid = UInt64.ofNat (left + stage.pending.size)
      ∧ closed.pending = ∅
      ∧ ∀ others count other, Runs start events others count other →
        other.close.2 = closed ∧ (others ++ other.close.1).Perm all := by
  intro start events
  refine ⟨?_, fun outputs left stage hruns => ?_⟩
  · obtain ⟨outputs, left, stage, hruns, heq⟩ := exists_runs_onEvents inputs start
    refine ⟨outputs, left, stage, hruns, ?_⟩
    rw [heq]
    exact giving_bind rfl
  intro all closed
  obtain ⟨groups, haccounts, hemits, houtputs, hleft⟩ :=
    hruns.accounts (accounts_ofWindow window true settles)
  obtain ⟨last, hlast⟩ := exists_leaves_releaseAll stage stage.pending.keys
  have hclosed : closed.Accounts (receivedFrom events) (groups ++ last) :=
    hlast.accounts _ _ haccounts
  have hpending : closed.pending = ∅ := pending_close stage
  have hall : all = (groups ++ last).flatMap (·.outputs true) := by
    have hlate : stage.close.1 = last.flatMap (·.outputs true) := by
      rw [close, hlast.outputs_eq, show stage.emitsInvalid = true from hemits]
    rw [List.flatMap_append, ← hlate]
    exact congrArg (· ++ stage.close.1) houtputs
  refine ⟨?_, ?_, ?_, ?_, ?_, hpending, ?_⟩
  · rw [hall]
    exact (executions_flatMap_perm _).trans (hclosed.perm hpending)
  · rw [hall]
    exact callsFollow_flatMap true _
  · intro trace htrace
    rw [hall] at htrace
    exact inEntryOrder_of_mem_outputs htrace
  · rw [hall, countP_isTrace_flatMap]
    exact hclosed.valid
  · have hsize : closed.pending.size + last.length = stage.pending.size := hlast.size
    rw [hpending, Std.ExtTreeMap.size_empty] at hsize
    have hlength : left + stage.pending.size = (groups ++ last).length := by
      rw [List.length_append, hleft]
      omega
    rw [hlength, List.length_eq_countP_add_countP Group.isValid, UInt64.ofNat_add, hclosed.valid,
      hclosed.invalid]
    simp only [Bool.not_eq_true, Bool.decide_eq_false]
  · intro others count other hother
    obtain ⟨rfl, rfl, hperm⟩ := hruns.unique hother
    exact ⟨rfl, hperm.append_right _⟩

end TraceReconstruction

end CallTrace
