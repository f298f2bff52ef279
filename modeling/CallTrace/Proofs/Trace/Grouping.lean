import CallTrace.Proofs.Trace.Calls
import Mathlib.Data.List.Dedup
import Mathlib.Data.List.Perm.Basic

/-!
# Executions by trace

The call trees that a collection of executions contains, one for each trace whose executions form
one when they are all taken together (`allOf`).
-/

namespace CallTrace.Trace

/-! ## The trees among executions -/

variable {id : Int64} {executions : List Execution}

/-- The executions of one trace. -/
def executionsOf (id : Int64) (executions : List Execution) : List Execution :=
  executions.filter (·.traceId = id)

/-- The ids of the traces. -/
def idsOf (executions : List Execution) : List Int64 := (executions.map (·.traceId)).dedup

/-- The trees of those traces whose executions, all taken together, form one. -/
def allOf (executions : List Execution) : List Trace :=
  (idsOf executions).filterMap fun id => (reconstruct id (executionsOf id executions)).toOption

/-- The calls of one trace; none if its executions do not form a tree. -/
def callsOf (id : Int64) (executions : List Execution) : List Call :=
  match reconstruct id (executionsOf id executions) with
  | .ok trace => trace.calls
  | .error _ => []

theorem mem_idsOf : id ∈ idsOf executions ↔ ∃ e ∈ executions, e.traceId = id := by
  rw [idsOf, List.mem_dedup, List.mem_map]

theorem mem_idsOf_append {more : List Execution} :
    id ∈ idsOf (executions ++ more) ↔ id ∈ idsOf executions ∨ id ∈ idsOf more := by
  simp only [mem_idsOf, List.mem_append, or_and_right, exists_or]

theorem mem_idsOf_cons {e : Execution} :
    id ∈ idsOf (e :: executions) ↔ e.traceId = id ∨ id ∈ idsOf executions := by
  simp only [mem_idsOf, List.mem_cons, exists_eq_or_imp]

theorem executionsOf_eq_nil (h : id ∉ idsOf executions) : executionsOf id executions = [] := by
  rw [executionsOf, List.filter_eq_nil_iff]
  intro e he htrace
  exact h (mem_idsOf.mpr ⟨e, he, of_decide_eq_true htrace⟩)

theorem executionsOf_singleton (id : Int64) (e : Execution) :
    executionsOf id [e] = if e.traceId = id then [e] else [] := by
  rw [executionsOf, List.filter_singleton]
  by_cases h : e.traceId = id <;> simp [h]

theorem executionsOf_append (id : Int64) (executions more : List Execution) :
    executionsOf id (executions ++ more) = executionsOf id executions ++ executionsOf id more :=
  List.filter_append ..

/-- Nothing is missing from a trace that occurs no more. -/
theorem executionsOf_append_of_notMem {more : List Execution} (h : id ∉ idsOf more) :
    executionsOf id (executions ++ more) = executionsOf id executions := by
  rw [executionsOf_append, executionsOf_eq_nil h, List.append_nil]

theorem executionsOf_ne_nil (h : id ∈ idsOf executions) : executionsOf id executions ≠ [] := by
  obtain ⟨e, he, htrace⟩ := mem_idsOf.mp h
  exact List.ne_nil_of_mem (List.mem_filter.mpr ⟨he, decide_eq_true htrace⟩)

/-- A tree consists of the executions that it was built from. -/
theorem executions_eq_of_reconstruct {trace : Trace} (h : reconstruct id executions = .ok trace) :
    trace.executions = inEntryOrder executions :=
  (builds_of_reconstruct h).executions_eq

theorem mem_of_mem_allOf {trace : Trace} (h : trace ∈ allOf executions) {e : Execution}
    (he : e ∈ trace.executions) : e ∈ executions := by
  obtain ⟨id, _, htrace⟩ := List.mem_filterMap.mp h
  cases hreconstruct : reconstruct id (executionsOf id executions) with
  | error fault => simp [hreconstruct, Except.toOption] at htrace
  | ok built =>
    obtain rfl : built = trace := by simpa [hreconstruct, Except.toOption] using htrace
    rw [executions_eq_of_reconstruct hreconstruct, inEntryOrder, List.mem_mergeSort] at he
    exact List.mem_of_mem_filter he

/-- **The calls of all trees**, in whatever order the traces are gone through. -/
theorem calls_perm_allOf {ids : List Int64} (hnodup : ids.Nodup)
    (hids : ∀ id, id ∈ ids ↔ id ∈ idsOf executions) :
    (ids.flatMap fun id => callsOf id executions).Perm ((allOf executions).flatMap calls) := by
  have hperm : ids.Perm (idsOf executions) :=
    (List.perm_ext_iff_of_nodup hnodup (List.nodup_dedup _)).mpr hids
  refine (hperm.flatMap_right _).trans (List.Perm.of_eq ?_)
  rw [allOf]
  induction idsOf executions with
  | nil => rfl
  | cons id ids ih =>
    rw [List.flatMap_cons, List.filterMap_cons, ih, callsOf]
    cases reconstruct id (executionsOf id executions) <;> rfl

end CallTrace.Trace
