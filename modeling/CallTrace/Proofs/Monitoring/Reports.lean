import CallTrace.Monitoring.Probe
import CallTrace.Proofs.Steps
import Mathlib.Data.List.FinRange
import Mathlib.Data.List.Perm.Basic

/-!
# What the controllers of a process write

With enabled controllers and writers that succeed (`Ready`), a process writes exactly the records of
the executions that end, in the order in which they do, each through its controller (`Writes`). What
one part of a run writes and what the next part writes add up (`Writes.trans`).
-/

namespace CallTrace.Monitoring

/-! ## Controllers in their places -/

namespace Process

variable {ω μ : Type} {n : Nat} {process : Process ω μ n}

theorem controller_setController (k j : Fin n) (controller : Controller ω) :
    (process.setController k controller).controller j
      = if k = j then controller else process.controller j := by
  show (process.controllers.set k controller)[(j : Nat)]
    = if k = j then controller else process.controllers[(j : Nat)]
  rw [Vector.getElem_set]
  simp only [Fin.ext_iff]

end Process

/-! ## Writers that succeed -/

/-- What it takes for a kind of writer to succeed: a state in which each write does, keeps the
state, and adds the record to those written. -/
structure Reliable (ω : Type) [RecordWriter ω] where
  ready : ω → Prop
  records : ω → List Record
  write_ok : ∀ writer record, ready writer → (RecordWriter.write writer record).1 = .ok ()
  ready_write : ∀ writer record, ready writer → ready (RecordWriter.write writer record).2
  records_write : ∀ writer record, ready writer →
    records (RecordWriter.write writer record).2 = records writer ++ [record]

/-- A writer into memory always succeeds. -/
def MemoryWriter.reliable : Reliable MemoryWriter where
  ready _ := True
  records writer := writer.records.toList
  write_ok _ _ _ := rfl
  ready_write _ _ _ := trivial
  records_write _ _ _ := Array.toList_push

variable {ω μ : Type} [RecordWriter ω] {n : Nat}

/-- The controller is enabled and its writer succeeds. -/
structure Controller.Ready (R : Reliable ω) (controller : Controller ω) : Prop where
  enabled : controller.isEnabled = true
  ready : R.ready controller.writer

/-- All controllers are enabled and their writers succeed. -/
def Ready (R : Reliable ω) (process : Process ω μ n) : Prop :=
  ∀ k, (process.controller k).Ready R

/-- The records of a controller among reports of executions. -/
def reportsOf (k : Fin n) (reports : List (Fin n × Execution)) : List Record :=
  (reports.filter fun report => report.1 = k).map fun report => .execution report.2

theorem reportsOf_append (k : Fin n) (reports more : List (Fin n × Execution)) :
    reportsOf k (reports ++ more) = reportsOf k reports ++ reportsOf k more := by
  simp [reportsOf]

theorem reportsOf_perm {reports others : List (Fin n × Execution)} (h : reports.Perm others)
    (k : Fin n) : (reportsOf k reports).Perm (reportsOf k others) :=
  (h.filter _).map _

theorem flatMap_ite_eq {α : Type} (x : α) {k : Fin n} {places : List (Fin n)}
    (hnodup : places.Nodup) (hmem : k ∈ places) :
    (places.flatMap fun j => if k = j then [x] else []) = [x] := by
  induction places with
  | nil => simp at hmem
  | cons j places ih =>
    rw [List.nodup_cons] at hnodup
    rw [List.flatMap_cons]
    by_cases hj : k = j
    · have hnone : (places.flatMap fun i => if k = i then [x] else []) = [] := by
        rw [List.flatMap_eq_nil_iff]
        intro i hi
        rw [if_neg]
        rintro rfl
        exact hnodup.1 (hj ▸ hi)
      rw [if_pos hj, hnone, List.append_nil]
    · rw [if_neg hj, List.nil_append]
      exact ih hnodup.2 ((List.mem_cons.mp hmem).resolve_left hj)

/-- The reports of the controllers are all reports. -/
theorem flatMap_reportsOf (reports : List (Fin n × Execution)) :
    ((List.finRange n).flatMap fun k => reportsOf k reports).Perm
      (reports.map fun report => .execution report.2) := by
  induction reports with
  | nil => simp [reportsOf]
  | cons report reports ih =>
    have hsplit : ∀ k, reportsOf k (report :: reports)
        = (if report.1 = k then [.execution report.2] else []) ++ reportsOf k reports := by
      intro k
      rw [← List.singleton_append, reportsOf_append]
      by_cases hk : report.1 = k <;> simp [reportsOf, hk]
    simp only [hsplit]
    refine (List.flatMap_append_perm _ _ _).symm.trans ?_
    rw [flatMap_ite_eq _ (List.nodup_finRange n) (List.mem_finRange _)]
    exact ih.cons _

/-- From one state of a process to a later one, the controllers have written just these reports, in
this order, and are still ready. -/
structure Writes (R : Reliable ω) (before after : Process ω μ n)
    (reports : List (Fin n × Execution)) : Prop where
  host : ∀ k, (after.controller k).host = (before.controller k).host
  ready : Ready R after
  records : ∀ k, R.records (after.controller k).writer
    = R.records (before.controller k).writer ++ reportsOf k reports

variable {R : Reliable ω} {before between after : Process ω μ n}
  {reports more : List (Fin n × Execution)}

namespace Writes

theorem trans (h : Writes R before between reports) (h' : Writes R between after more) :
    Writes R before after (reports ++ more) where
  host k := (h'.host k).trans (h.host k)
  ready := h'.ready
  records k := by rw [h'.records, h.records, reportsOf_append, List.append_assoc]

/-- A step that leaves the writers alone writes nothing. -/
theorem of_same (hready : Ready R before)
    (h : ∀ k, (after.controller k).host = (before.controller k).host
      ∧ (after.controller k).isEnabled = (before.controller k).isEnabled
      ∧ (after.controller k).writer = (before.controller k).writer) :
    Writes R before after [] where
  host k := (h k).1
  ready k := ⟨(h k).2.1.trans (hready k).enabled, by rw [(h k).2.2]; exact (hready k).ready⟩
  records k := by
    rw [(h k).2.2]
    exact (List.append_nil _).symm

theorem refl (hready : Ready R before) : Writes R before before [] :=
  of_same hready fun _ => ⟨rfl, rfl, rfl⟩

/-- Only the controllers matter. -/
theorem congr {before' after' : Process ω μ n} (h : Writes R before after reports)
    (hbefore : before'.controllers = before.controllers)
    (hafter : after'.controllers = after.controllers) : Writes R before' after' reports := by
  have hb : ∀ k, before'.controller k = before.controller k := fun k => by
    rw [Process.controller, Process.controller, hbefore]
  have ha : ∀ k, after'.controller k = after.controller k := fun k => by
    rw [Process.controller, Process.controller, hafter]
  refine ⟨fun k => ?_, fun k => ?_, fun k => ?_⟩
  · rw [ha, hb, h.host]
  · rw [ha]
    exact h.ready k
  · rw [ha, hb]
    exact h.records k

/-- Entering an execution writes nothing. -/
theorem of_enter {process : Process ω μ n} (hready : Ready R process) (k : Fin n)
    (ids : TraceIds) :
    Writes R process (process.setController k { process.controller k with ids }) [] := by
  refine of_same hready fun j => ?_
  rw [Process.controller_setController]
  by_cases hj : k = j
  · subst hj
    rw [if_pos rfl]
    exact ⟨rfl, rfl, rfl⟩
  · rw [if_neg hj]
    exact ⟨rfl, rfl, rfl⟩

end Writes

/-! ## Writing one record -/

/-- A ready controller takes a record. -/
theorem Controller.Ready.accept {controller : Controller ω}
    (h : controller.Ready R) (record : Record) :
    (controller.accept record).1 = true
      ∧ (controller.accept record).2.Ready R
      ∧ (controller.accept record).2.host = controller.host
      ∧ R.records (controller.accept record).2.writer
          = R.records controller.writer ++ [record] := by
  have henabled := h.enabled
  simp only [Controller.isEnabled, Bool.and_eq_true, Bool.not_eq_true'] at henabled
  have hok := R.write_ok controller.writer record h.ready
  have hready := R.ready_write controller.writer record h.ready
  have hrecords := R.records_write controller.writer record h.ready
  cases hw : RecordWriter.write controller.writer record with
  | mk result writer =>
    rw [hw] at hok hready hrecords
    dsimp only at hok
    subst hok
    have haccept : controller.accept record
        = (true, { controller with inserts := controller.inserts + 1, writer }) := by
      simp [Controller.accept, Controller.write, henabled, hw]
    rw [haccept]
    exact ⟨rfl, ⟨by simp [Controller.isEnabled, henabled], hready⟩, rfl, hrecords⟩

/-- A record that is handed to a controller is the only one written. -/
theorem Writes.of_accept {process : Process ω μ n} (hready : Ready R process) (k : Fin n)
    (e : Execution) :
    Writes R process
      (process.setController k ((process.controller k).accept (.execution e)).2) [(k, e)] := by
  obtain ⟨-, hwritten, hhost, hrecords⟩ := (hready k).accept (.execution e)
  refine ⟨fun j => ?_, fun j => ?_, fun j => ?_⟩ <;> rw [Process.controller_setController]
  · by_cases hj : k = j
    · rw [if_pos hj, hhost, hj]
    · rw [if_neg hj]
  · by_cases hj : k = j
    · rw [if_pos hj]
      exact hwritten
    · rw [if_neg hj]
      exact hready j
  · by_cases hj : k = j
    · subst hj
      rw [if_pos rfl, hrecords]
      simp [reportsOf]
    · rw [if_neg hj]
      simp [reportsOf, hj]

/-- An execution that got its correlation data ends in three steps: the clock is read, the record is
handed on, and the context goes back. -/
theorem Process.exit_of_isValid (process : Process ω μ n) (k : Fin n) (pending : Pending)
    (hvalid : pending.scope.isValid = true) :
    process.exit k pending
      = (process.time.2.setController k ((process.controller k).accept (.execution
          (pending.execution process.thread.sessionId (process.controller k).host
            process.time.1))).2).leave pending.scope := by
  unfold Process.exit
  simp only [hvalid, if_true]
  rfl

/-- **Ending an execution that got its correlation data writes its record.** -/
theorem Process.exit_writes {process : Process ω μ n} (hready : Ready R process)
    (k : Fin n) (pending : Pending) (hvalid : pending.scope.isValid = true) :
    Writes R process (process.exit k pending)
      [(k, pending.execution process.thread.sessionId (process.controller k).host
        process.time.1)] := by
  rw [process.exit_of_isValid k pending hvalid]
  exact (Writes.of_accept hready k _).congr rfl rfl

end CallTrace.Monitoring
