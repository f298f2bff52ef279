import CallTrace.Proofs.Stages.Finishing

/-!
# Which traces run out of time

After each execution the stage has finished the traces whose newest exit lies before the deadline,
which is that of the newest exit of all (`deadlineAfter`). The newest exit of a trace is known from
zero on only, so that no trace runs out of time while the deadline is not behind zero (`IsLate`).
Whatever the times are, a trace is finished if it is late, or if it is complete and complete traces
do not wait, and for no other reason (`finished_iff_late_or_complete`).
-/

namespace CallTrace.TraceReconstruction

open PendingTrace (ofExecutions)
open Pipeline (Event)
open Trace (LooksWhole executionsOf)

variable {stage after : TraceReconstruction} {window : Int64} {emitsInvalid settles : Bool}
  {received executions : List Execution} {e : Execution} {given : List Output} {left : Nat}

/-! ## The deadline -/

/-- The newest exit with which a trace need not be finished yet, when some executions have been
received. -/
def deadlineAfter (window : Int64) (received : List Execution) : Int :=
  (Saturating.clamp ((newestExit? received).getD Int64.minValue.toInt - window.toInt)).toInt

/-- All executions of the trace left before the deadline, and the deadline lies behind zero. -/
def IsLate (deadline : Int) (executions : List Execution) : Prop :=
  0 < deadline ∧ ∃ own ∈ newestExit? executions, own < deadline

theorem IsLate.ne_nil {deadline : Int} (h : IsLate deadline executions) : executions ≠ [] := by
  rintro rfl
  obtain ⟨-, own, hown, -⟩ := h
  cases hown

theorem Remembers.toInt_newestTout (h : Remembers stage window emitsInvalid settles received) :
    stage.newestTout.toInt = (newestExit? received).getD Int64.minValue.toInt := by
  refine h.newest.unique ?_
  cases hnewest : newestExit? received with
  | none =>
    obtain rfl : received = [] := by
      by_contra hne
      obtain ⟨newest, hsome, -⟩ := exists_newestExit hne
      rw [hnewest] at hsome
      cases hsome
    simp [valuesOf]
  | some newest =>
    have hgreatest := isGreatest_of_mem_newestExit? hnewest
    obtain ⟨e, -, rfl⟩ := hgreatest.1
    have hinsert := hgreatest.insert Int64.minValue.toInt
    rwa [max_eq_right e.tout.minValue_le_toInt] at hinsert

theorem Remembers.toInt_deadline (h : Remembers stage window emitsInvalid settles received) :
    stage.deadline.toInt = deadlineAfter window received := by
  rw [deadline, Saturating.sub, h.toInt_newestTout, h.window]
  rfl

/-- What is known of the newest exit decides whether a trace is late. -/
theorem lastTout_lt_iff (hne : executions ≠ []) (deadline : Int) :
    (ofExecutions executions).lastTout.toInt < deadline ↔ IsLate deadline executions := by
  obtain ⟨newest, hnewest, -⟩ := exists_newestExit hne
  have hlast : (ofExecutions executions).lastTout.toInt = max 0 newest :=
    (PendingTrace.isGreatest_lastTout executions).unique
      ((isGreatest_of_mem_newestExit? hnewest).insert 0)
  rw [hlast, max_lt_iff, IsLate, Option.mem_def.mp hnewest]
  simp

/-! ## What an execution finishes -/

/-- The traces that an execution finishes, told from what is held of them when it has been taken in
and from what has been received. -/
theorem Handles.finished (h : Handles stage (.record (.execution e)) given left after)
    (hcorrelated : e.isCorrelated)
    (hstage : Remembers stage window emitsInvalid settles received) :
    let group := (stage.accept e).held
    let complete := fun id => settles = false ∧ id = e.traceId ∧ LooksWhole (group id)
    let late := fun id => IsLate (deadlineAfter window (received ++ [e])) (group id)
    ∃ ids : List Int64, ids.Nodup
      ∧ (∀ id, id ∈ ids ↔ complete id ∨ late id)
      ∧ (∀ id, after.held id = if id ∈ ids then [] else group id)
      ∧ given = ids.flatMap (fun id => Group.outputs emitsInvalid { id, executions := group id })
      ∧ ((∀ id, late id → complete id) → after.timedOut = stage.timedOut) := by
  intro group complete late
  have haccepted := hstage.accept e
  obtain ⟨ids, hfinishes, hids, htimedOut⟩ := h.finishes hcorrelated hstage.isExact
  have hcomplete : ∀ id, id ∈ (stage.accept e).completed e.traceId ↔ complete id := by
    intro id
    rw [mem_completed, haccepted.settles, PendingTrace.isComplete_iff]
  have hlate : ∀ id, id ∈ ids ↔ ¬ complete id ∧ late id := by
    intro id
    rw [hids, hcomplete, Int64.lt_iff_toInt_lt, haccepted.toInt_deadline]
    refine and_congr_right fun _ => ?_
    constructor
    · rintro ⟨hne, hlt⟩
      exact (lastTout_lt_iff hne _).mp hlt
    · intro hlate
      exact ⟨hlate.ne_nil, (lastTout_lt_iff hlate.ne_nil _).mpr hlate⟩
  refine ⟨_, hfinishes.nodup, ?_, hfinishes.held_eq, ?_, ?_⟩
  · intro id
    rw [List.mem_append, hcomplete, hlate]
    tauto
  · rw [hfinishes.outputs_eq, haccepted.emitsInvalid]
  · intro hnone
    refine htimedOut (List.eq_nil_iff_forall_not_mem.mpr fun id hid => ?_)
    obtain ⟨hnot, his⟩ := (hlate id).mp hid
    exact hnot (hnone id his)

/-- **A trace is finished when it is late, or when it is complete and complete traces do not wait.**
After any events an execution arrives. In whatever order the traces that have run out of time were
and are visited, and whatever the times are,

* what is held of a trace, with this execution if it belongs to the trace, is what has been received
  of it without the groups that have been finished before;
* the traces that are finished now, each once and with all that is held of it, are those that are
  late and, if complete traces do not wait, that of the execution in case that it looks whole;
* the others stay as they are, and exactly those of which something is held are pending. -/
theorem finished_iff_late_or_complete (window : Int64) (emitsInvalid settles : Bool)
    (events : List Event) (outputs : List Output) (left : Nat) (stage : TraceReconstruction)
    (hruns : Runs (ofWindow window emitsInvalid settles) events outputs left stage)
    (e : Execution) (hcorrelated : e.isCorrelated) (given : List Output) (count : Nat)
    (after : TraceReconstruction)
    (hhandles : Handles stage (.record (.execution e)) given count after) :
    let received := receivedFrom events ++ [e]
    let group := fun id => stage.held id ++ executionsOf id [e]
    ∃ (finished : List Group) (ids : List Int64),
      outputs = finished.flatMap (·.outputs emitsInvalid)
      ∧ (∀ id, executionsOf id (finished.flatMap (·.executions)) ++ group id
        = executionsOf id received)
      ∧ ids.Nodup
      ∧ (∀ id, id ∈ ids ↔ (settles = false ∧ id = e.traceId ∧ LooksWhole (group id))
        ∨ IsLate (deadlineAfter window received) (group id))
      ∧ given = ids.flatMap (fun id => Group.outputs emitsInvalid { id, executions := group id })
      ∧ (∀ id, after.held id = if id ∈ ids then [] else group id)
      ∧ ∀ id, id ∈ after.pending ↔ group id ≠ [] ∧ id ∉ ids := by
  intro received group
  have hstage := hruns.remembers (remembers_ofWindow window emitsInvalid settles)
  obtain ⟨finished, haccounts, -, houtputs, -⟩ :=
    hruns.accounts (accounts_ofWindow window emitsInvalid settles)
  obtain ⟨ids, hnodup, hids, hheld, hgiven, -⟩ := hhandles.finished hcorrelated hstage
  simp only [held_accept] at hids hheld hgiven
  have hafter := (hhandles.remembers hstage).isExact
  refine ⟨finished, ids, houtputs, fun id => ?_, hnodup, hids, hgiven, hheld, fun id => ?_⟩
  · have hbalance := haccounts.balance id
    rw [List.nil_append, List.nil_append] at hbalance
    rw [Trace.executionsOf_append, ← hbalance, List.append_assoc]
  · rw [hafter.mem_pending, hheld]
    by_cases hmem : id ∈ ids
    · simp only [hmem, if_true, not_true, and_false, ne_eq]
    · simp only [hmem, if_false, not_false_eq_true, and_true, ne_eq, group]

/-- A trace is finished by an execution of another one that leaves later than the window allows. -/
theorem late_after_window :
    let first : Execution := ⟨"A", "f()", "", 1, 5, 20, "h", 0, 0⟩
    let second : Execution := ⟨"B", "g()", "", 2, 110, 130, "h", 0, 0⟩
    ∃ outputs left stage given count after,
      Runs (ofWindow 100 true true) [.record (.execution first)] outputs left stage
      ∧ second.isCorrelated
      ∧ Handles stage (.record (.execution second)) given count after
      ∧ (1 : Int64) ∉ after.pending ∧ (2 : Int64) ∈ after.pending := by
  intro first second
  have hnone : [].Perm ((ofWindow 100 true true).accept first).expired :=
    List.Perm.of_eq (by decide +kernel)
  have hfirst : Handles (ofWindow 100 true true) (.record (.execution first)) _ _
      ((ofWindow 100 true true).accept first) := .collected (by decide) rfl hnone rfl
  have hruns := Runs.cons hfirst .nil
  obtain ⟨-, given, count, after, hhandles, -⟩ :=
    exists_handles_onEvent input (.record (.execution second))
      ((ofWindow 100 true true).accept first)
  obtain ⟨-, ids, -, -, -, hids, -, -, hpending⟩ := finished_iff_late_or_complete 100 true true _ _
    _ _ hruns second (by decide) given count after hhandles
  refine ⟨_, _, _, given, count, after, hruns, by decide, hhandles, ?_, ?_⟩
  · rw [hpending]
    rintro ⟨-, hnot⟩
    exact hnot ((hids 1).mpr (.inr ⟨by decide, 20, by decide, by decide⟩))
  · refine (hpending 2).mpr ⟨by decide, fun hmem => ?_⟩
    rcases (hids 2).mp hmem with ⟨hsettles, -⟩ | ⟨-, own, hown, hlate⟩
    · cases hsettles
    · obtain rfl : 130 = own := Option.some.inj hown
      exact absurd hlate (by decide)

/-- A trace that left long before the deadline stays, because the deadline is not behind zero. -/
theorem pending_before_zero :
    let first : Execution := ⟨"A", "f()", "", 1, -1010, -1000, "h", 0, 0⟩
    let second : Execution := ⟨"B", "g()", "", 2, -20, -10, "h", 0, 0⟩
    let stage := ((ofWindow 100 true true).onExecutions [first, second]).2
    deadlineAfter 100 [first, second] = -110
      ∧ newestExit? (stage.held 1) = some (-1000)
      ∧ (1 : Int64) ∈ stage.pending := by
  decide +kernel

end CallTrace.TraceReconstruction
