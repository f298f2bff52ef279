import CallTrace.Proofs.Stages.Finishing

/-!
# When a trace is complete

The stage counts the executions of a trace and does not look for gaps between their order indices.
What it takes for complete is what looks whole, and that is whole unless an order index is negative
(`complete_iff_looksWhole`). Negative indices make up for missing ones in the count, so that a trace
may be finished too early, with executions that cannot be put together.
-/

namespace CallTrace.TraceReconstruction

open PendingTrace (ofExecutions)
open Pipeline (Event)
open Trace (IsWhole LooksWhole reconstruct)

variable {stage : TraceReconstruction}

/-- A trace that gets an execution holds it after those that it held before. -/
theorem IsExact.getElem?_accept (h : stage.IsExact) (e : Execution) :
    (stage.accept e).pending[e.traceId]?
      = some (ofExecutions (stage.held e.traceId ++ [e])) := by
  rw [h.accept e e.traceId, held_accept, Trace.executionsOf_singleton, if_pos rfl,
    if_neg (by simp)]

/-- A trace leaves on arrival if it is complete and complete traces do not wait. -/
theorem IsExact.notMem_releaseComplete (h : stage.IsExact) (e : Execution) :
    e.traceId ∉ ((stage.accept e).releaseComplete e.traceId).2.pending
      ↔ stage.settles = false
        ∧ (ofExecutions (stage.held e.traceId ++ [e])).isComplete = true := by
  have hfinishes := (h.accept e).finishes_releaseComplete e.traceId
  rw [← Std.ExtTreeMap.isSome_getElem?_iff_mem, hfinishes.getElem?, h.getElem?_accept, completed,
    held_accept, Trace.executionsOf_singleton, if_pos rfl]
  show _ ↔ (stage.accept e).settles = false ∧ _
  cases (stage.accept e).settles <;>
    cases (ofExecutions (stage.held e.traceId ++ [e])).isComplete <;> simp

/-- **A trace is complete if it looks whole.** After any events an execution arrives, in whatever
order the traces that had run out of time were visited. The group of its trace then consists of the
executions held before and this one, and

* it counts as complete exactly if it looks whole;
* it is whole exactly if it counts as complete and none of its order indices is negative;
* it is finished on arrival exactly if it counts as complete and complete traces do not wait;
* if it counts as complete and no order index is negative, it is refused for its depths only;
* if it counts as complete and an order index is negative, it is refused as if the least of them
  were a duplicate. -/
theorem complete_iff_looksWhole (window : Int64) (emitsInvalid settles : Bool)
    (events : List Event) (outputs : List Output) (left : Nat) (stage : TraceReconstruction)
    (hruns : Runs (ofWindow window emitsInvalid settles) events outputs left stage)
    (e : Execution) :
    let group := stage.held e.traceId ++ [e]
    ∃ pending, (stage.accept e).pending[e.traceId]? = some pending
      ∧ pending.executions = group
      ∧ (pending.isComplete = true ↔ LooksWhole group)
      ∧ (IsWhole group ↔ pending.isComplete = true ∧ ∀ other ∈ group, 0 ≤ other.eoi)
      ∧ (e.traceId ∉ ((stage.accept e).releaseComplete e.traceId).2.pending
        ↔ settles = false ∧ pending.isComplete = true)
      ∧ (pending.isComplete = true → (∀ other ∈ group, 0 ≤ other.eoi) →
        ∀ fault, reconstruct e.traceId group = .error fault →
          ∃ eoi ess, fault = .invalidNesting eoi ess)
      ∧ (pending.isComplete = true → (∃ other ∈ group, other.eoi < 0) →
        ∃ eoi < 0, IsLeast {k | ∃ other ∈ group, other.eoi = k} eoi
          ∧ reconstruct e.traceId group = .error (.duplicateEoi eoi)) := by
  intro group
  have hstage := hruns.remembers (remembers_ofWindow window emitsInvalid settles)
  obtain ⟨finished, haccounts, -⟩ := hruns.accounts (accounts_ofWindow window emitsInvalid settles)
  have hid : ∀ other ∈ group, other.traceId = e.traceId := by
    intro other hother
    rcases List.mem_append.mp hother with hheld | hnew
    · exact haccounts.traceId_eq hheld
    · rw [List.mem_singleton.mp hnew]
  have hcomplete := PendingTrace.isComplete_iff group
  refine ⟨ofExecutions group, hstage.isExact.getElem?_accept e,
    PendingTrace.executions_ofExecutions group, hcomplete, ?_, ?_, ?_, ?_⟩
  · rw [hcomplete]
    exact Trace.isWhole_iff
  · rw [hstage.isExact.notMem_releaseComplete, hstage.settles]
  · intro h hnonneg fault hfault
    rcases (hcomplete.mp h).fault_cases (Trace.explains_of_reconstruct hid hfault) with
      ⟨eoi, ess, rfl, -⟩ | ⟨eoi, -, hneg, ⟨other, hother, rfl⟩, -⟩
    · exact ⟨eoi, ess, rfl⟩
    · exact absurd hneg (Int32.not_lt.mpr (hnonneg other hother))
  · intro h hneg
    exact (hcomplete.mp h).reconstruct_of_negative hid hneg

/-- The root arrives last of three executions, of which one has a negative order index. -/
theorem complete_with_negative_index :
    let root : Execution := ⟨"A", "f()", "", 7, 0, 10, "h", 0, 0⟩
    let others : List Execution :=
      [⟨"B", "g()", "", 7, 2, 9, "h", 2, 1⟩, ⟨"C", "h()", "", 7, 3, 8, "h", -2, 1⟩]
    ∃ stage, Runs (ofWindow 1000 true false) (others.map (.record <| .execution ·)) [] 0 stage
      ∧ stage.held 7 = others
      ∧ ∃ pending, (stage.accept root).pending[(7 : Int64)]? = some pending
        ∧ (pending.isComplete = true ↔ LooksWhole (others ++ [root])) := by
  intro root others
  have hruns : Runs (ofWindow 1000 true false) (others.map (.record <| .execution ·)) [] 0
      (others.foldl accept (ofWindow 1000 true false)) :=
    .cons (.collected (by decide) rfl (.refl _) rfl)
      (.cons (.collected (by decide) rfl (.refl _) rfl) .nil)
  obtain ⟨pending, hpending, -, hcomplete, -⟩ :=
    complete_iff_looksWhole 1000 true false _ [] 0 _ hruns root
  exact ⟨_, hruns, rfl, pending, hpending, hcomplete⟩

/-- A trace counts as complete although one of its order indices is missing, and is finished on
arrival of its root although it cannot be put together. -/
theorem complete_without_first_callee :
    let executions : List Execution :=
      [⟨"B", "g()", "", 7, 2, 9, "h", 2, 1⟩, ⟨"C", "h()", "", 7, 3, 8, "h", -2, 1⟩,
        ⟨"A", "f()", "", 7, 0, 10, "h", 0, 0⟩]
    let accepted := executions.foldl accept (ofWindow 1000 true false)
    (∀ e ∈ executions, e.isCorrelated)
      ∧ (∃ pending, accepted.pending[(7 : Int64)]? = some pending
        ∧ pending.executions = executions ∧ pending.isComplete = true)
      ∧ ¬ IsWhole executions
      ∧ (7 : Int64) ∉ (accepted.releaseComplete 7).2.pending
      ∧ reconstruct 7 executions = .error (.duplicateEoi (-2)) := by
  intro executions accepted
  have hexact : ((executions.take 2).foldl accept (ofWindow 1000 true false)).IsExact :=
    ((isExact_ofWindow 1000 true false).accept _).accept _
  have hcomplete : (ofExecutions executions).isComplete = true := by decide +kernel
  have hwhole : LooksWhole executions := (PendingTrace.isComplete_iff executions).mp hcomplete
  refine ⟨by decide, ⟨ofExecutions executions, hexact.getElem?_accept _, ?_, hcomplete⟩, ?_, ?_, ?_⟩
  · exact PendingTrace.executions_ofExecutions executions
  · exact fun h => absurd (h.counted.nonneg _ (List.mem_of_getElem? (i := 1) rfl)) (by decide)
  · exact (hexact.notMem_releaseComplete _).mpr ⟨rfl, hcomplete⟩
  · have honly : ∀ e ∈ executions, e.eoi < 0 → e.eoi = -2 := by decide
    have hid : ∀ e ∈ executions, e.traceId = 7 := by decide
    obtain ⟨eoi, hneg, ⟨⟨e, he, rfl⟩, -⟩, hfault⟩ :=
      hwhole.reconstruct_of_negative hid (by decide)
    rw [hfault, honly e he hneg]

end CallTrace.TraceReconstruction
