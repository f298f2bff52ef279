import CallTrace.Proofs.Stages.TraceReconstruction
import CallTrace.Proofs.Trace.Faults
import Mathlib.Data.Finset.Card
import Mathlib.Order.Bounds.Basic

/-!
# What is known of an unfinished trace

What is known of a trace is brought up to date with each execution. Here it is compared with the
executions themselves: the newest exit is that of an execution, but never lies before zero
(`isGreatest_lastTout`), and a trace counts as complete if it looks whole (`isComplete_iff`). An
incomplete trace can look whole only if one of its order indices is negative (`isWhole_iff`), and
then it cannot be put together for this reason (`reconstruct_of_negative`).
-/

namespace CallTrace

variable {executions : List Execution}

/-! ## The values of executions -/

/-- The values that a quantity has among executions. -/
def valuesOf (quantity : Execution → Int) (executions : List Execution) : Set Int :=
  {value | ∃ e ∈ executions, quantity e = value}

theorem valuesOf_concat (quantity : Execution → Int) (executions : List Execution)
    (e : Execution) :
    valuesOf quantity (executions ++ [e]) = insert (quantity e) (valuesOf quantity executions) := by
  ext value
  simp [valuesOf, eq_comm, or_comm]

/-- A running maximum is the greatest value or the one that it started with. -/
theorem isGreatest_concat {quantity : Execution → Int} {start greatest : Int}
    (h : IsGreatest (insert start (valuesOf quantity executions)) greatest) (e : Execution) :
    IsGreatest (insert start (valuesOf quantity (executions ++ [e])))
      (max greatest (quantity e)) := by
  rw [valuesOf_concat, Set.insert_comm, max_comm]
  exact h.insert _

theorem isGreatest_of_mem_newestExit? {newest : Int} (h : newest ∈ newestExit? executions) :
    IsGreatest (valuesOf (·.tout.toInt) executions) newest := by
  obtain ⟨hmem, hle⟩ := List.max?_eq_some_iff.mp h
  refine ⟨List.mem_map.mp hmem, ?_⟩
  rintro _ ⟨e, he, rfl⟩
  exact hle _ (List.mem_map_of_mem he)

namespace PendingTrace

/-- What is known of a trace when these executions of it have arrived. -/
def ofExecutions (executions : List Execution) : PendingTrace := executions.foldl add {}

theorem ofExecutions_concat (executions : List Execution) (e : Execution) :
    ofExecutions (executions ++ [e]) = (ofExecutions executions).add e := by
  rw [ofExecutions, List.foldl_append]
  rfl

@[simp] theorem executions_ofExecutions (executions : List Execution) :
    (ofExecutions executions).executions = executions := by
  induction executions using List.reverseRecOn with
  | nil => rfl
  | append_singleton executions e ih => rw [ofExecutions_concat, add, ih]

/-- The newest exit is the newest of the executions, but not before zero. -/
theorem isGreatest_lastTout (executions : List Execution) :
    IsGreatest (insert 0 (valuesOf (·.tout.toInt) executions))
      (ofExecutions executions).lastTout.toInt := by
  induction executions using List.reverseRecOn with
  | nil => exact ⟨.inl rfl, by simp [valuesOf, upperBounds, ofExecutions]⟩
  | append_singleton executions e ih =>
    have hlast : ((ofExecutions executions).add e).lastTout.toInt
        = max (ofExecutions executions).lastTout.toInt e.tout.toInt := toInt_max _ _
    rw [ofExecutions_concat, hlast]
    exact isGreatest_concat ih e

theorem isGreatest_maxEoi (executions : List Execution) :
    IsGreatest (insert 0 (valuesOf (·.eoi.toInt) executions))
      (ofExecutions executions).maxEoi.toInt := by
  induction executions using List.reverseRecOn with
  | nil => exact ⟨.inl rfl, by simp [valuesOf, upperBounds, ofExecutions]⟩
  | append_singleton executions e ih =>
    have hmax : ((ofExecutions executions).add e).maxEoi.toInt
        = max (ofExecutions executions).maxEoi.toInt e.eoi.toInt := Trace.toInt_deeper _ _
    rw [ofExecutions_concat, hmax]
    exact isGreatest_concat ih e

theorem hasRoot_iff (executions : List Execution) :
    (ofExecutions executions).hasRoot = true
      ↔ ∃ root ∈ executions, root.eoi = 0 ∧ root.ess = 0 := by
  induction executions using List.reverseRecOn with
  | nil => simp [ofExecutions]
  | append_singleton executions e ih =>
    rw [ofExecutions_concat, add, Bool.or_eq_true, ih]
    simp [or_and_right, exists_or]

theorem mem_eois (executions : List Execution) (eoi : Int32) :
    eoi ∈ (ofExecutions executions).eois ↔ eoi ∈ executions.map Execution.eoi := by
  induction executions using List.reverseRecOn with
  | nil => simp [ofExecutions]
  | append_singleton executions e ih =>
    rw [ofExecutions_concat, add, Std.ExtTreeSet.mem_insert, Std.LawfulEqCmp.compare_eq_iff_eq, ih]
    simp [eq_comm, or_comm]

theorem size_eois (executions : List Execution) :
    (ofExecutions executions).eois.size = (executions.map Execution.eoi).toFinset.card := by
  induction executions using List.reverseRecOn with
  | nil => rfl
  | append_singleton executions e ih =>
    have hset : ((executions ++ [e]).map Execution.eoi).toFinset
        = insert e.eoi (executions.map Execution.eoi).toFinset := by
      ext eoi
      simp
    rw [ofExecutions_concat, add, Std.ExtTreeSet.size_insert, ih, hset, Finset.card_insert_eq_ite]
    simp only [Std.ExtTreeSet.mem_iff_contains.symm, mem_eois, List.mem_toFinset]

end PendingTrace

/-! ## Whole traces -/

namespace Trace

variable {id : Int64} {fault : TraceError} {eoi : Int32}

/-- The order indices are the numbers from zero on, each once, and that of a root is zero. -/
structure IsWhole (executions : List Execution) : Prop where
  counted : IsCounted executions
  root : ∃ root ∈ executions, root.eoi = 0 ∧ root.ess = 0

/-- No order index occurs twice, there is a root, and the greatest index is one less than the number
of executions. -/
structure LooksWhole (executions : List Execution) : Prop where
  distinct : (executions.map Execution.eoi).Nodup
  root : ∃ root ∈ executions, root.eoi = 0 ∧ root.ess = 0
  greatest : IsGreatest (valuesOf (·.eoi.toInt) executions) (executions.length - 1)

theorem LooksWhole.ne_nil (h : LooksWhole executions) : executions ≠ [] := by
  obtain ⟨root, hroot, -⟩ := h.root
  exact List.ne_nil_of_mem hroot

theorem IsCounted.mem_valuesOf (h : IsCounted executions) {value : Int} :
    value ∈ valuesOf (·.eoi.toInt) executions ↔ 0 ≤ value ∧ value < executions.length := by
  have hmem : value ∈ valuesOf (·.eoi.toInt) executions
      ↔ value ∈ (List.range executions.length).map Nat.cast := by
    rw [← List.Perm.mem_iff h, List.mem_map]
    rfl
  rw [hmem]
  simp only [List.mem_map, List.mem_range]
  constructor
  · rintro ⟨k, hk, rfl⟩
    omega
  · rintro ⟨hnonneg, hlt⟩
    exact ⟨value.toNat, by omega, by omega⟩

theorem IsCounted.nonneg (h : IsCounted executions) : ∀ e ∈ executions, 0 ≤ e.eoi := fun e he =>
  Int32.le_iff_toInt_le.mpr (h.mem_valuesOf.mp ⟨e, he, rfl⟩).1

theorem IsCounted.distinct (h : IsCounted executions) : (executions.map Execution.eoi).Nodup := by
  have hvalues : (executions.map (·.eoi.toInt)).Nodup :=
    (List.Perm.nodup_iff h).mpr (List.nodup_range.map fun _ _ => Int.ofNat_inj.mp)
  rw [← Function.comp_def, ← List.map_map] at hvalues
  exact hvalues.of_map _

/-- What is whole looks whole, and what looks whole is so unless an order index is negative. -/
theorem isWhole_iff :
    IsWhole executions ↔ LooksWhole executions ∧ ∀ e ∈ executions, 0 ≤ e.eoi := by
  constructor
  · intro h
    obtain ⟨root, hroot, -⟩ := h.root
    have hpos := List.length_pos_of_mem hroot
    have hlast : (executions.length : Int) - 1 ∈ valuesOf (·.eoi.toInt) executions :=
      h.counted.mem_valuesOf.mpr (by omega)
    refine ⟨⟨h.counted.distinct, h.root, hlast, ?_⟩, h.counted.nonneg⟩
    intro value hvalue
    have := (h.counted.mem_valuesOf.mp hvalue).2
    omega
  · rintro ⟨h, hnonneg⟩
    -- different indices between zero and the greatest, as many as there are such numbers
    have hdistinct : (executions.map (·.eoi.toInt)).Nodup := by
      rw [← Function.comp_def, ← List.map_map]
      exact h.distinct.map fun _ _ => Int32.toInt_inj.mp
    refine ⟨(hdistinct.subperm ?_).perm_of_length_le (by simp), h.root⟩
    intro value hvalue
    obtain ⟨e, he, rfl⟩ := List.mem_map.mp hvalue
    have hle : e.eoi.toInt ≤ executions.length - 1 := h.greatest.2 ⟨e, he, rfl⟩
    have hnonneg := Int32.le_iff_toInt_le.mp (hnonneg e he)
    rw [Int32.toInt_zero] at hnonneg
    exact List.mem_map.mpr ⟨e.eoi.toInt.toNat, List.mem_range.mpr (by omega), by omega⟩

/-! ## Putting together what looks whole -/

theorem LooksWhole.carriers_le_one (h : LooksWhole executions) (eoi : Int32) :
    carriers eoi executions ≤ 1 :=
  List.nodup_iff_count_le_one.mp h.distinct eoi

/-- What looks whole is refused for a negative index or for the depths. -/
theorem LooksWhole.fault_cases (h : LooksWhole executions) (hexplains : Explains executions fault) :
    (∃ eoi ess, fault = .invalidNesting eoi ess ∧ ∀ e ∈ executions, 0 ≤ e.eoi)
    ∨ ∃ eoi, fault = .duplicateEoi eoi ∧ eoi < 0
      ∧ IsLeast {k | ∃ e ∈ executions, e.eoi = k} eoi := by
  obtain ⟨root, hroot, hzero, hess⟩ := h.root
  cases fault with
  | empty =>
    rw [show executions = [] from hexplains] at hroot
    cases hroot
  | foreignExecution => exact hexplains.elim
  | duplicateEoi eoi =>
    rcases hexplains with ⟨-, htwice⟩ | ⟨hneg, hleast⟩
    · have := h.carriers_le_one eoi
      omega
    · exact .inr ⟨eoi, rfl, hneg, hleast⟩
  | eoiGap expected found =>
    rcases hexplains with ⟨hpos, hcounts, hmissing, hfound⟩ | ⟨-, -, -, htwice⟩
    -- the missing index lies below the greatest one, but none below that one is missing
    · have hwhole := isWhole_iff.mpr ⟨h, hcounts.nonneg⟩
      obtain ⟨hlt, e, he, rfl⟩ := hfound.1
      have hfits : e.eoi.toInt < executions.length :=
        (hwhole.counted.mem_valuesOf.mp ⟨e, he, rfl⟩).2
      rw [Int32.lt_iff_toInt_lt] at hlt
      rw [Int32.le_iff_toInt_le, Int32.toInt_zero] at hpos
      obtain ⟨other, hother, heoi⟩ := hwhole.counted.mem_valuesOf.mpr
        (show 0 ≤ expected.toInt ∧ expected.toInt < executions.length by omega)
      refine absurd (List.mem_map.mpr ⟨other, hother, Int32.toInt_inj.mp heoi⟩) ?_
      exact List.count_eq_zero.mp hmissing
    · have := h.carriers_le_one Int32.maxValue
      omega
  | invalidRoot ess =>
    obtain ⟨hcounted, hne, other, hother, heoi, rfl⟩ := hexplains
    have hsame : other = root :=
      List.inj_on_of_nodup_map h.distinct hother hroot (heoi.trans hzero.symm)
    exact absurd (hsame ▸ hess) hne
  | invalidNesting eoi ess => exact .inl ⟨eoi, ess, rfl, hexplains.1.nonneg⟩

/-- **What looks whole with a negative index is refused for it.** -/
theorem LooksWhole.reconstruct_of_negative (h : LooksWhole executions)
    (hid : ∀ e ∈ executions, e.traceId = id) (hneg : ∃ e ∈ executions, e.eoi < 0) :
    ∃ eoi, eoi < 0 ∧ IsLeast {k | ∃ e ∈ executions, e.eoi = k} eoi
      ∧ reconstruct id executions = .error (.duplicateEoi eoi) := by
  obtain ⟨e, he, hlt⟩ := hneg
  cases hresult : reconstruct id executions with
  | ok trace =>
    have := (isCounted_of_reconstruct hresult).nonneg e he
    exact absurd hlt (Int32.not_lt.mpr this)
  | error fault =>
    rcases h.fault_cases (explains_of_reconstruct hid hresult) with
      ⟨-, -, -, hnonneg⟩ | ⟨eoi, rfl, hneg, hleast⟩
    · exact absurd hlt (Int32.not_lt.mpr (hnonneg e he))
    · exact ⟨eoi, hneg, hleast, rfl⟩

end Trace

namespace PendingTrace

/-- **A trace counts as complete if it looks whole.** -/
theorem isComplete_iff (executions : List Execution) :
    (ofExecutions executions).isComplete = true ↔ Trace.LooksWhole executions := by
  have hdistinct : (executions.map Execution.eoi).toFinset.card = executions.length
      ↔ (executions.map Execution.eoi).Nodup := by
    rw [← List.length_map Execution.eoi]
    exact Multiset.toFinset_card_eq_card_iff_nodup (m := Multiset.ofList _)
  have hvalues : (∃ root ∈ executions, root.eoi = 0 ∧ root.ess = 0) →
      insert 0 (valuesOf (·.eoi.toInt) executions) = valuesOf (·.eoi.toInt) executions := by
    rintro ⟨root, hroot, hzero, -⟩
    exact Set.insert_eq_of_mem ⟨root, hroot, congrArg Int32.toInt hzero⟩
  have hgreatest := isGreatest_maxEoi executions
  simp only [isComplete, Bool.and_eq_true, decide_eq_true_eq, hasRoot_iff, size_eois,
    executions_ofExecutions]
  constructor
  · rintro ⟨⟨hroot, hsize⟩, hmax⟩
    rw [hvalues hroot] at hgreatest
    refine ⟨hdistinct.mp hsize, hroot, ?_⟩
    rwa [← hsize, hmax, Int.add_sub_cancel]
  · intro h
    have hsize := hdistinct.mpr h.distinct
    rw [hvalues h.root] at hgreatest
    refine ⟨⟨h.root, hsize⟩, ?_⟩
    rw [hsize, hgreatest.unique h.greatest, Int.sub_add_cancel]

end PendingTrace

end CallTrace
