import CallTrace.Proofs.Stages.Conservation
import CallTrace.Proofs.Stages.PendingTrace

/-!
# Which traces are finished

What the stage knows of a trace is what the executions amount to that it holds (`IsExact`), and of
all executions it remembers the newest exit (`Remembers`). An execution therefore finishes the
traces that one can tell from the executions alone: its own trace, if that looks whole and does not
wait, and all others that have run out of time (`Handles.finishes`).
-/

namespace CallTrace.TraceReconstruction

open PendingTrace (ofExecutions)
open Pipeline (Event)
open Trace (executionsOf)

variable {stage between after : TraceReconstruction} {id : Int64} {ids more : List Int64}
  {outputs later given : List Output} {e : Execution} {event : Event} {events : List Event}
  {received : List Execution} {left : Nat}

/-! ## What is known of the traces -/

/-- What is known of a trace is what the executions amount to that are held of it. -/
def IsExact (stage : TraceReconstruction) : Prop :=
  ∀ id, stage.pending[id]?
    = if stage.held id = [] then none else some (ofExecutions (stage.held id))

theorem isExact_ofWindow (window : Int64) (emitsInvalid settles : Bool) :
    (ofWindow window emitsInvalid settles).IsExact := fun id => by simp [held, ofWindow]

namespace IsExact

theorem mem_pending (h : stage.IsExact) : id ∈ stage.pending ↔ stage.held id ≠ [] := by
  rw [← Std.ExtTreeMap.isSome_getElem?_iff_mem, h id]
  split <;> simp [*]

theorem known_eq (h : stage.IsExact) (id : Int64) :
    stage.known id = ofExecutions (stage.held id) := by
  rw [known, h id]
  split
  · next hnone =>
    rw [hnone]
    rfl
  · rfl

theorem accept (h : stage.IsExact) (e : Execution) : (stage.accept e).IsExact := by
  intro id
  have hpending : (stage.accept e).pending[id]?
      = if e.traceId = id then some ((stage.known e.traceId).add e) else stage.pending[id]? := by
    simp only [TraceReconstruction.accept, Std.ExtTreeMap.getElem?_insert,
      Std.LawfulEqCmp.compare_eq_iff_eq]
    rfl
  rw [hpending, held_accept, Trace.executionsOf_singleton]
  by_cases hsame : e.traceId = id
  · subst hsame
    rw [if_pos rfl, if_pos rfl, if_neg (by simp), h.known_eq, PendingTrace.ofExecutions_concat]
  · rw [if_neg hsame, if_neg hsame, List.append_nil]
    exact h id

end IsExact

/-! ## Finishing traces -/

/-- From one state of the stage to another one these traces are finished, in this order, with all
that is held of them, and else nothing but the counts changes. -/
structure Finishes (stage after : TraceReconstruction) (ids : List Int64)
    (outputs : List Output) : Prop where
  same : after = { stage with
    pending := after.pending, valid := after.valid, invalid := after.invalid
    timedOut := after.timedOut }
  nodup : ids.Nodup
  mem_pending : ∀ id ∈ ids, id ∈ stage.pending
  getElem? : ∀ id, after.pending[id]? = if id ∈ ids then none else stage.pending[id]?
  outputs_eq : outputs = ids.flatMap fun id =>
    Group.outputs stage.emitsInvalid { id, executions := stage.held id }

namespace Finishes

theorem refl (stage : TraceReconstruction) : Finishes stage stage [] [] :=
  ⟨rfl, List.nodup_nil, by simp, by simp, rfl⟩

theorem held_eq (h : Finishes stage after ids outputs) (id : Int64) :
    after.held id = if id ∈ ids then [] else stage.held id := by
  rw [held, h.getElem?]
  split <;> rfl

theorem trans (h : Finishes stage between ids outputs)
    (hlater : Finishes between after more later) :
    Finishes stage after (ids ++ more) (outputs ++ later) := by
  have hdisjoint : ∀ id ∈ more, id ∉ ids := by
    intro id hid hfinished
    have hmem := Std.ExtTreeMap.isSome_getElem?_iff_mem.mpr (hlater.mem_pending id hid)
    rw [h.getElem?, if_pos hfinished] at hmem
    cases hmem
  refine ⟨?_, ?_, ?_, ?_, ?_⟩
  · rw [hlater.same, h.same]
  · exact h.nodup.append hlater.nodup fun id hid hmore => hdisjoint id hmore hid
  · intro id hid
    rcases List.mem_append.mp hid with hfirst | hmore
    · exact h.mem_pending id hfirst
    · have hmem := Std.ExtTreeMap.isSome_getElem?_iff_mem.mpr (hlater.mem_pending id hmore)
      rw [h.getElem?, if_neg (hdisjoint id hmore)] at hmem
      exact Std.ExtTreeMap.isSome_getElem?_iff_mem.mp hmem
  · intro id
    rw [hlater.getElem?, h.getElem?]
    simp only [List.mem_append]
    split <;> split <;> simp_all
  · have hemits : between.emitsInvalid = stage.emitsInvalid := by rw [h.same]
    rw [h.outputs_eq, hlater.outputs_eq, List.flatMap_append, hemits]
    congr 1
    refine List.flatMap_congr fun id hid => ?_
    rw [h.held_eq, if_neg (hdisjoint id hid)]

theorem isExact (h : Finishes stage after ids outputs) (hexact : stage.IsExact) :
    after.IsExact := by
  intro id
  rw [h.held_eq, h.getElem?]
  split
  · rw [if_pos rfl]
  · exact hexact id

end Finishes

theorem finishes_release {pending : PendingTrace} (h : stage.pending[id]? = some pending) :
    Finishes stage (stage.release id).2 [id] (stage.release id).1 := by
  have hheld : stage.held id = pending.executions := by rw [held, h, Option.elim_some]
  rw [release_eq h]
  refine ⟨rfl, List.nodup_singleton id, ?_, ?_, ?_⟩
  · simp only [List.mem_singleton, forall_eq]
    exact Std.ExtTreeMap.isSome_getElem?_iff_mem.mp (by rw [h]; rfl)
  · intro other
    rw [getElem?_erase_pending]
    simp only [List.mem_singleton, eq_comm]
  · rw [List.flatMap_singleton, hheld]

theorem finishes_countTimeout (stage : TraceReconstruction) (id : Int64) :
    Finishes stage (stage.countTimeout id) [] [] := by
  obtain ⟨timedOut, heq⟩ := exists_countTimeout_eq stage id
  rw [heq]
  exact ⟨rfl, List.nodup_nil, by simp, by simp, rfl⟩

/-- What is left to finish after one of several traces. -/
theorem Finishes.still_pending (h : Finishes stage after [id] outputs)
    (hnodup : (id :: ids).Nodup) (hids : ∀ other ∈ id :: ids, other ∈ stage.pending) :
    ∀ other ∈ ids, other ∈ after.pending := by
  intro other hother
  have hne : other ∉ [id] := by
    rw [List.mem_singleton]
    rintro rfl
    exact (List.nodup_cons.mp hnodup).1 hother
  rw [← Std.ExtTreeMap.isSome_getElem?_iff_mem, h.getElem?, if_neg hne,
    Std.ExtTreeMap.isSome_getElem?_iff_mem]
  exact hids other (List.mem_cons_of_mem id hother)

theorem finishes_release_of_mem (h : id ∈ stage.pending) :
    Finishes stage (stage.release id).2 [id] (stage.release id).1 := by
  obtain ⟨pending, hpending⟩ :=
    Option.isSome_iff_exists.mp (Std.ExtTreeMap.isSome_getElem?_iff_mem.mpr h)
  exact finishes_release hpending

theorem finishes_releaseExpired (hnodup : ids.Nodup) (hids : ∀ id ∈ ids, id ∈ stage.pending) :
    Finishes stage (stage.releaseExpired ids).2 ids (stage.releaseExpired ids).1 := by
  induction ids generalizing stage with
  | nil => exact .refl stage
  | cons id ids ih =>
    have hcounted := finishes_countTimeout stage id
    have hpending : id ∈ (stage.countTimeout id).pending := by
      obtain ⟨timedOut, heq⟩ := exists_countTimeout_eq stage id
      rw [heq]
      exact hids id List.mem_cons_self
    have hfirst := hcounted.trans (finishes_release_of_mem hpending)
    exact hfirst.trans (ih (List.nodup_cons.mp hnodup).2 (hfirst.still_pending hnodup hids))

/-- The trace, if it looks whole and complete traces do not wait. -/
def completed (stage : TraceReconstruction) (id : Int64) : List Int64 :=
  if !stage.settles && (ofExecutions (stage.held id)).isComplete then [id] else []

theorem mem_completed {other : Int64} : other ∈ stage.completed id
    ↔ stage.settles = false ∧ other = id ∧ (ofExecutions (stage.held other)).isComplete = true := by
  rw [completed]
  split
  · next hif =>
    simp only [Bool.and_eq_true, Bool.not_eq_true'] at hif
    rw [List.mem_singleton]
    exact ⟨fun hsame => ⟨hif.1, hsame, hsame ▸ hif.2⟩, fun h => h.2.1⟩
  · next hif =>
    simp only [Bool.and_eq_true, Bool.not_eq_true'] at hif
    refine iff_of_false List.not_mem_nil ?_
    rintro ⟨hsettles, rfl, hcomplete⟩
    exact hif ⟨hsettles, hcomplete⟩

theorem IsExact.finishes_releaseComplete (h : stage.IsExact) (id : Int64) :
    Finishes stage (stage.releaseComplete id).2 (stage.completed id)
      (stage.releaseComplete id).1 := by
  unfold releaseComplete completed
  have hpending := h id
  split at hpending
  · next hnone =>
    rw [hpending, hnone, show (ofExecutions []).isComplete = false from rfl, Bool.and_false,
      if_neg Bool.false_ne_true]
    exact .refl stage
  · rw [hpending]
    dsimp only
    split
    · exact finishes_release hpending
    · exact .refl stage

theorem timedOut_releaseComplete (stage : TraceReconstruction) (id : Int64) :
    (stage.releaseComplete id).2.timedOut = stage.timedOut := by
  unfold releaseComplete
  split
  · next pending hpending =>
    split
    · rw [release_eq hpending]
    · rfl
  · rfl

theorem IsExact.mem_expired (h : stage.IsExact) :
    id ∈ stage.expired ↔ stage.held id ≠ []
      ∧ (ofExecutions (stage.held id)).lastTout < stage.deadline := by
  rw [TraceReconstruction.mem_expired, h id]
  split <;> simp [*]

/-! ## Runs -/

/-- **An execution finishes** its own trace, if that is complete and complete traces do not wait,
and then those traces that are held and have run out of time. -/
theorem Handles.finishes (h : Handles stage (.record (.execution e)) given left after)
    (hcorrelated : e.isCorrelated) (hexact : stage.IsExact) :
    let accepted := stage.accept e
    ∃ late : List Int64, Finishes accepted after (accepted.completed e.traceId ++ late) given
      ∧ (∀ id, id ∈ late ↔ id ∉ accepted.completed e.traceId ∧ accepted.held id ≠ []
        ∧ (ofExecutions (accepted.held id)).lastTout < accepted.deadline)
      ∧ (late = [] → after.timedOut = stage.timedOut) := by
  intro accepted
  cases h with
  | ignored hignored => exact absurd hcorrelated (hignored e rfl)
  | @collected _ completed expired between _ late _ hcompleted hlate hexpired =>
    have hfirst : Finishes accepted between (accepted.completed e.traceId) completed := by
      have hrelease := (hexact.accept e).finishes_releaseComplete e.traceId
      rwa [hcompleted] at hrelease
    have hbetween := hfirst.isExact (hexact.accept e)
    have hmem : ∀ id, id ∈ late ↔ between.held id ≠ []
        ∧ (ofExecutions (between.held id)).lastTout < between.deadline := fun id => by
      rw [hlate.mem_iff, hbetween.mem_expired]
    have hlater : Finishes between after late expired := by
      have hrelease := finishes_releaseExpired (hlate.nodup_iff.mpr (nodup_expired between))
        fun id hid => hbetween.mem_pending.mpr ((hmem id).mp hid).1
      rwa [hexpired] at hrelease
    refine ⟨late, hfirst.trans hlater, fun id => ?_, ?_⟩
    · have hdeadline : between.deadline = accepted.deadline := by
        rw [deadline, hfirst.same]
        rfl
      rw [hmem, hdeadline, hfirst.held_eq]
      split <;> simp [*, accepted]
    · rintro rfl
      obtain rfl : between = after := (Prod.mk.inj hexpired).2
      have htimedOut := timedOut_releaseComplete (stage.accept e) e.traceId
      rw [hcompleted] at htimedOut
      exact htimedOut

/-- What the stage remembers when it has received some executions. -/
structure Remembers (stage : TraceReconstruction) (window : Int64) (emitsInvalid settles : Bool)
    (received : List Execution) : Prop where
  window : stage.window = window
  emitsInvalid : stage.emitsInvalid = emitsInvalid
  settles : stage.settles = settles
  newest : IsGreatest (insert Int64.minValue.toInt (valuesOf (·.tout.toInt) received))
    stage.newestTout.toInt
  isExact : stage.IsExact

section

variable {window : Int64} {emitsInvalid settles : Bool}

theorem remembers_ofWindow (window : Int64) (emitsInvalid settles : Bool) :
    Remembers (ofWindow window emitsInvalid settles) window emitsInvalid settles [] where
  window := rfl
  emitsInvalid := rfl
  settles := rfl
  newest := ⟨.inl rfl, by simp [valuesOf, upperBounds, ofWindow]⟩
  isExact := isExact_ofWindow window emitsInvalid settles

theorem Remembers.accept (h : Remembers stage window emitsInvalid settles received)
    (e : Execution) :
    Remembers (stage.accept e) window emitsInvalid settles (received ++ [e]) where
  window := h.window
  emitsInvalid := h.emitsInvalid
  settles := h.settles
  newest := by
    rw [show (stage.accept e).newestTout.toInt = max stage.newestTout.toInt e.tout.toInt from
      toInt_max _ _]
    exact isGreatest_concat h.newest e
  isExact := h.isExact.accept e

theorem Finishes.remembers (h : Finishes stage after ids outputs)
    (hstage : Remembers stage window emitsInvalid settles received) :
    Remembers after window emitsInvalid settles received where
  window := by rw [h.same, hstage.window]
  emitsInvalid := by rw [h.same, hstage.emitsInvalid]
  settles := by rw [h.same, hstage.settles]
  newest := by
    rw [h.same]
    exact hstage.newest
  isExact := h.isExact hstage.isExact

theorem Handles.remembers (h : Handles stage event given left after)
    (hstage : Remembers stage window emitsInvalid settles received) :
    Remembers after window emitsInvalid settles (received ++ receivedFrom [event]) := by
  cases h with
  | ignored hignored =>
    rw [receivedFrom_of_ignored hignored, List.append_nil]
    exact hstage
  | @collected e _ _ _ _ _ hcorrelated hcompleted hids hexpired =>
    obtain ⟨late, hfinishes, -⟩ :=
      Handles.finishes (.collected hcorrelated hcompleted hids hexpired) hcorrelated hstage.isExact
    rw [receivedFrom_of_correlated hcorrelated]
    exact hfinishes.remembers (hstage.accept e)

theorem Runs.remembers (h : Runs stage events outputs left after)
    (hstage : Remembers stage window emitsInvalid settles received) :
    Remembers after window emitsInvalid settles (received ++ receivedFrom events) := by
  induction h generalizing received with
  | nil =>
    rw [show receivedFrom [] = [] from rfl, List.append_nil]
    exact hstage
  | cons hfirst _ ih =>
    rw [receivedFrom_cons, ← List.append_assoc]
    exact ih (hfirst.remembers hstage)

end

end CallTrace.TraceReconstruction
