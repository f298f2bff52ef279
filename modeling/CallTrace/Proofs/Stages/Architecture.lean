import CallTrace.Proofs.Model.Architecture
import CallTrace.Proofs.Stages.Provenance

/-!
# The architecture of what assemblers leave

Whatever assemblers add to the models, the type model holds the operations that they were asked to
add (`Job.holds_performAll`), so everything in it stands at its own signature and can be drawn. The
counts of all invocations together do not exceed the number of jobs
(`Job.totalCount_performAll_le`), so the sums that the edges between components show are exact for
fewer than `2 ^ 64` jobs.
-/

namespace CallTrace

open Model

namespace Model.ExecutionModel

/-- The counts of all invocations together. -/
def totalCount (model : ExecutionModel) : Nat :=
  (model.allInvocations.map (·.statistics.count.toNat)).sum

/-- The items of a map after an insertion: the new one, and what is left of the old ones. -/
theorem toList_insert_perm {α β : Type} [Ord α] [Std.TransOrd α] [Std.LawfulEqOrd α]
    (map : Std.ExtTreeMap α β) (key : α) (value : β) :
    (map.insert key value).toList.Perm ((key, value) :: (map.erase key).toList) := by
  have hnodup : ∀ map : Std.ExtTreeMap α β, map.toList.Nodup := by
    intro map
    refine Std.ExtTreeMap.distinct_keys_toList.imp ?_
    rintro a b hne rfl
    exact hne (Std.LawfulEqCmp.compare_eq_iff_eq.mpr rfl)
  have hnot : (key, value) ∉ (map.erase key).toList := by
    rw [Std.ExtTreeMap.mem_toList_iff_getElem?_eq_some, Std.ExtTreeMap.getElem?_erase_self]
    exact nofun
  refine (List.perm_ext_iff_of_nodup (hnodup _) (List.nodup_cons.mpr ⟨hnot, hnodup _⟩)).mpr ?_
  rintro ⟨other, found⟩
  rw [List.mem_cons, Std.ExtTreeMap.mem_toList_iff_getElem?_eq_some,
    Std.ExtTreeMap.mem_toList_iff_getElem?_eq_some, Std.ExtTreeMap.getElem?_insert,
    Std.ExtTreeMap.getElem?_erase, Prod.mk.injEq]
  by_cases hsame : key = other
  · simp [hsame, eq_comm]
  · simp [hsame, Ne.symm hsame]

theorem totalCount_insert (model : ExecutionModel) (edge : Edge) (entry : Invocation) :
    totalCount { model with invocations := model.invocations.insert edge entry }
      = entry.statistics.count.toNat
        + totalCount { model with invocations := model.invocations.erase edge } := by
  have hperm := toList_insert_perm model.invocations edge entry
  simp only [totalCount, allInvocations]
  rw [((hperm.map _).map _).sum_eq, List.map_cons, List.map_cons, List.sum_cons]

theorem totalCount_erase (model : ExecutionModel) (edge : Edge) :
    model.totalCount = model.invocations[edge]?.elim 0 (·.statistics.count.toNat)
      + totalCount { model with invocations := model.invocations.erase edge } := by
  cases hknown : model.invocations[edge]? with
  | none =>
    have hsame : model.invocations.erase edge = model.invocations := by
      refine Std.ExtTreeMap.ext_getElem? fun other => ?_
      rw [Std.ExtTreeMap.getElem?_erase]
      split
      · next h => rw [← Std.LawfulEqCmp.compare_eq_iff_eq.mp h, hknown]
      · rfl
    rw [hsame, Option.elim_none, Nat.zero_add]
  | some entry =>
    have hsame : model.invocations.insert edge entry = model.invocations := by
      refine Std.ExtTreeMap.ext_getElem? fun other => ?_
      rw [Std.ExtTreeMap.getElem?_insert]
      split
      · next h => rw [← Std.LawfulEqCmp.compare_eq_iff_eq.mp h, hknown]
      · rfl
    have hinsert := totalCount_insert model edge entry
    rwa [hsame] at hinsert

/-- A call adds at most one to the counts. -/
theorem totalCount_addCall_le (model : ExecutionModel) (caller callee : OperationRef)
    (duration : Option Int64) :
    (model.addCall caller callee duration).2.totalCount ≤ model.totalCount + 1 := by
  have hrecord : ∀ s : Statistics, (s.record duration).count.toNat ≤ s.count.toNat + 1 := by
    intro s
    have hcount : (s.record duration).count = s.count + 1 := by cases duration <;> rfl
    rw [hcount, UInt64.toNat_add]
    exact Nat.mod_le _ _
  rw [totalCount_erase model ⟨caller, callee⟩, addCall]
  dsimp only
  rw [totalCount_insert, Nat.add_right_comm]
  refine Nat.add_le_add_right ((hrecord _).trans (Nat.add_le_add_right ?_ 1)) _
  cases model.invocations[(⟨caller, callee⟩ : Edge)]? with
  | none => exact Nat.le_refl _
  | some entry => exact Nat.le_refl _

end Model.ExecutionModel

namespace Job

variable {models : Models} {known : List OperationRef}

/-- The operation that is to be added, if one is. -/
def refs : Job → List OperationRef
  | operation _ assembler site => [assembler.extractor.resolve site]
  | account _ => []

theorem holds_perform (job : Job) (h : models.types.Holds known) :
    (job.perform models).2.types.Holds (known ++ job.refs) := by
  cases job with
  | operation now assembler site => exact h.ensureOperation (assembler.extractor.resolve site)
  | account request =>
    rw [refs, List.append_nil, perform, Request.types_perform]
    exact h

/-- **The type model holds the operations that were added.** -/
theorem holds_performAll (jobs : List Job) (h : models.types.Holds known) :
    (performAll jobs models).2.types.Holds (known ++ jobs.flatMap refs) := by
  induction jobs generalizing models known with
  | nil => simpa [performAll] using h
  | cons job jobs ih =>
    rw [List.flatMap_cons, ← List.append_assoc]
    exact ih (holds_perform job h)

theorem totalCount_perform_le (job : Job) (models : Models) :
    (job.perform models).2.execution.totalCount ≤ models.execution.totalCount + 1 := by
  cases job with
  | operation now assembler site => exact Nat.le_succ _
  | account request =>
    rw [perform, Request.execution_perform]
    cases request.upsert with
    | call caller callee duration => exact ExecutionModel.totalCount_addCall_le _ _ _ _
    | operationDataflow | storageDataflow => exact Nat.le_succ _

/-- The invocations count no more calls than there were jobs. -/
theorem totalCount_performAll_le (jobs : List Job) (models : Models) :
    (performAll jobs models).2.execution.totalCount
      ≤ models.execution.totalCount + jobs.length := by
  induction jobs generalizing models with
  | nil => exact Nat.le_refl _
  | cons job jobs ih =>
    have hfirst := totalCount_perform_le job models
    have hrest := ih (job.perform models).2
    rw [List.length_cons]
    refine hrest.trans ?_
    omega

/-- **The architecture loses nothing and counts right.** Whatever assemblers add to the models, the
graph has one node for each component and in it one for each operation that either model knows. Each
invocation within a component has an edge of its own, which joins its two ends and tells how often
it was made. Each pair of components of which one calls the other has one edge, which tells how often
and by how many invocations. No edge is left out. -/
theorem architecture_is_complete (label : String) (jobs : List Job) :
    let types := (performAll jobs {}).2.types
    let execution := (performAll jobs {}).2.execution
    let invocations := execution.allInvocations
    (∀ key component, types.component? key = some component → component.signature = key
        ∧ ∀ name operation, component.operation? name = some operation →
          operation.signature = name)
      ∧ (∃ pairs : List ComponentPair, pairs.Nodup
        ∧ (∀ pair, pair ∈ pairs ↔ ∃ invocation ∈ invocations, invocation.components = pair)
        ∧ Draws (architecture label types execution) (KnowsComponent types execution)
          (KnowsOperation types execution) invocations (pairs.map (·.toEdge invocations)))
      ∧ (∀ invocation ∈ invocations,
        invocation.toEdge.source = invocation.caller.shown
          ∧ invocation.toEdge.target = invocation.callee.shown
          ∧ invocation.toEdge.properties.get? "count"
            = some (toString invocation.statistics.count))
      ∧ (invocations.map (·.statistics.count.toNat)).sum ≤ jobs.length := by
  intro types execution invocations
  have hempty : (Models.types {}).Holds [] := TypeModel.holds_empty
  have hholds : types.Holds (jobs.flatMap refs) := holds_performAll jobs hempty
  refine ⟨fun key component hcomponent => ?_, ⟨_, Std.ExtTreeMap.nodup_keys,
    fun pair => mem_keys_componentCalls, draws_architecture hholds label execution⟩,
    fun invocation _ => ?_, ?_⟩
  · exact ⟨hholds.component_signature hcomponent,
      fun name operation => hholds.operation_signature hcomponent⟩
  · exact ⟨rfl, rfl, invocation.count_toEdge⟩
  · have hcount := totalCount_performAll_le jobs {}
    exact hcount.trans (Nat.le_of_eq (Nat.zero_add _))

end Job

end CallTrace
