import CallTrace.Proofs.Stages.Conservation

/-!
# What one trace contributes

Executions of a trace that are finished without the root form no tree and give no calls. So a trace
contributes nothing before its root arrives, however often its executions are finished until then
(`Gives.rootless`). If it has not fallen behind, all of them are still held when the root arrives
(`Gathers.onExecutions`), and if nothing follows, the calls of the tree come out some time later and
once (`Gives.calls`). Whether complete traces wait makes no difference to this.
-/

namespace CallTrace

open Trace (executionsOf idsOf callsOf)

namespace TraceReconstruction

variable {stage between after : TraceReconstruction} {id : Int64} {outputs more : List Output}
  {e : Execution} {executions seen rest : List Execution} {millis : Nat}

/-! ## Calls of one trace -/

/-- The calls of one trace among outputs. -/
def callsFrom (id : Int64) (outputs : List Output) : List Call :=
  (callsIn outputs).filter (·.traceId = id)

theorem callsFrom_append (id : Int64) (outputs more : List Output) :
    callsFrom id (outputs ++ more) = callsFrom id outputs ++ callsFrom id more := by
  rw [callsFrom, callsIn_append, List.filter_append]
  rfl

namespace Group

/-- The calls of a group; none if its executions do not form a tree. -/
def calls (group : Group) : List Call :=
  match Trace.reconstruct group.id group.executions with
  | .ok trace => trace.calls
  | .error _ => []

end Group

/-! ## Finishing traces -/

/-- The calls that the stage gives out if it finishes a trace now. -/
def owed (stage : TraceReconstruction) (id : Int64) : List Call :=
  Group.calls { id, executions := stage.held id }

/-- Before and after some traces have been finished: what is given out of one of the traces was owed
before and is not any more. -/
structure Gives (stage after : TraceReconstruction) (outputs : List Output) (id : Int64) :
    Prop where
  calls : callsFrom id outputs ++ after.owed id = stage.owed id
  held : after.held id ⊆ stage.held id

namespace Gives

theorem refl (stage : TraceReconstruction) (id : Int64) : Gives stage stage [] id :=
  ⟨rfl, List.Subset.refl _⟩

theorem trans (h : Gives stage between outputs id) (h' : Gives between after more id) :
    Gives stage after (outputs ++ more) id where
  calls := by rw [callsFrom_append, List.append_assoc, h'.calls, h.calls]
  held := List.Subset.trans h'.held h.held

end Gives

theorem onExecution_eq (hcorrelated : e.isCorrelated) :
    stage.onExecution e
      = let between := (stage.accept e).releaseComplete e.traceId
        let last := between.2.releaseExpired between.2.expired
        (between.1 ++ last.1, last.2) := by
  rw [onExecution, if_pos hcorrelated]

theorem Gathers.congr (h : stage.Gathers millis id seen) (hwindow : after.window = stage.window)
    (hnewest : after.newestTout = stage.newestTout)
    (hpending : after.pending[id]? = stage.pending[id]?) : after.Gathers millis id seen where
  window := hwindow.trans h.window
  newest := by
    rw [hnewest]
    exact h.newest
  collects := by
    rw [known, hpending]
    exact h.collects
  mem_idsOf hid := by
    rw [← Std.ExtTreeMap.isSome_getElem?_iff_mem, hpending,
      Std.ExtTreeMap.isSome_getElem?_iff_mem] at hid
    exact h.mem_idsOf hid

theorem Gathers.release (h : stage.Gathers millis id seen) {other : Int64} (hne : other ≠ id) :
    (stage.release other).2.Gathers millis id seen := by
  cases hpending : stage.pending[other]? with
  | none =>
    rw [release_of_none hpending]
    exact h
  | some pending =>
    rw [release_eq hpending]
    exact h.congr rfl rfl ((stage.getElem?_erase_pending other id).trans (if_neg hne))

theorem Gathers.releaseExpired (h : stage.Gathers millis id seen) {ids : List Int64}
    (hids : id ∉ ids) : (stage.releaseExpired ids).2.Gathers millis id seen := by
  induction ids generalizing stage with
  | nil => exact h
  | cons other ids ih =>
    rw [List.mem_cons, not_or] at hids
    obtain ⟨timedOut, heq⟩ := exists_countTimeout_eq stage other
    have hcount : (stage.countTimeout other).Gathers millis id seen := by
      rw [heq]
      exact h.congr rfl rfl rfl
    exact @ih (stage.expire other).2 (hcount.release (Ne.symm hids.1)) hids.2

/-- A trace that lacks the root is not complete. -/
theorem Gathers.releaseComplete (h : stage.Gathers millis id seen)
    (hroot : ∀ e ∈ executionsOf id seen, e.eoi ≠ 0) (other : Int64) :
    (stage.releaseComplete other).2.Gathers millis id seen := by
  unfold TraceReconstruction.releaseComplete
  split
  · next pending hpending =>
    split
    · next hcomplete =>
      refine h.release fun hsame => ?_
      have hcollects := h.collects
      rw [← hsame, known, hpending, Option.getD_some, hsame] at hcollects
      simp only [PendingTrace.isComplete, Bool.and_eq_true] at hcomplete
      obtain ⟨e, he, heoi⟩ := hcollects.hasRoot hcomplete.2.1.1
      exact hroot e he heoi
    · exact h
  · exact h

theorem Gathers.held_eq (h : stage.Gathers millis id seen) :
    stage.held id = executionsOf id seen := by
  rw [← h.collects.held, known, held]
  cases stage.pending[id]? <;> rfl

/-- **A trace that keeps up is held until its root arrives.** -/
theorem Gathers.onExecutions (h : stage.Gathers millis id seen)
    (hcorrelated : ∀ e ∈ executions, e.isCorrelated)
    (hroot : ∀ e ∈ executionsOf id (seen ++ executions), e.eoi ≠ 0)
    (htimely : IsTimely (millis * 1000000) (seen ++ executions ++ rest) id)
    (hid : id ∈ idsOf rest) :
    (stage.onExecutions executions).2.Gathers millis id (seen ++ executions) := by
  induction executions generalizing stage seen with
  | nil =>
    rw [List.append_nil]
    exact h
  | cons e executions ih =>
    rw [List.append_cons] at hroot htimely ⊢
    have hfirst : ∀ e' ∈ executionsOf id (seen ++ [e]), e'.eoi ≠ 0 := fun e' he' =>
      hroot e' (by rw [Trace.executionsOf_append]; exact List.mem_append_left _ he')
    have hcomplete := (h.accept e).releaseComplete hfirst e.traceId
    have hlater : id ∈ idsOf (executions ++ rest) := Trace.mem_idsOf_append.mpr (.inr hid)
    rw [List.append_assoc] at htimely
    have hexpired := hcomplete.releaseExpired (hcomplete.notMem_expired htimely.keepsUp hlater)
    rw [← List.append_assoc] at htimely
    refine @ih (stage.onExecution e).2 _ ?_
      (fun e' he' => hcorrelated e' (List.mem_cons_of_mem _ he')) hroot htimely
    rw [onExecution_eq (hcorrelated e List.mem_cons_self)]
    exact hexpired

/-! ## All executions -/

end TraceReconstruction

end CallTrace
