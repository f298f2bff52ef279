import CallTrace.Model.Execution
import CallTrace.Proofs.Saturating
import Mathlib.Algebra.Order.BigOperators.Group.List
import Mathlib.Algebra.Order.Ring.Int

/-!
# What the execution model knows

The statistics of an edge tell how many calls there were, the sum of their durations and the
shortest and the longest one (`Statistics.Summarizes`). None of it depends on the order in which the
calls came, so a model accounts for a collection of calls rather than for a sequence
(`Accounts.of_perm`).
-/

namespace CallTrace.Model

/-! ## Statistics -/

namespace Statistics

variable {s : Statistics} {durations others : List Int}

/-- The statistics are those of these durations. -/
structure Summarizes (s : Statistics) (durations : List Int) : Prop where
  count : s.count = .ofNat durations.length
  timedCount : s.timedCount = .ofNat durations.length
  total : s.total = Saturating.clamp durations.sum
  min : s.min.map Int64.toInt = durations.min?
  max : s.max.map Int64.toInt = durations.max?

theorem summarizes_nil : Summarizes {} [] where
  count := rfl
  timedCount := rfl
  total := by decide
  min := rfl
  max := rfl

/-- **The order of the durations makes no difference.** -/
theorem Summarizes.of_perm (h : Summarizes s durations) (hperm : durations.Perm others) :
    Summarizes s others where
  count := hperm.length_eq ▸ h.count
  timedCount := hperm.length_eq ▸ h.timedCount
  total := hperm.sum_eq ▸ h.total
  min := by
    rw [h.min]
    exact Option.ext fun d => by simp only [List.min?_eq_some_iff, hperm.mem_iff]
  max := by
    rw [h.max]
    exact Option.ext fun d => by simp only [List.max?_eq_some_iff, hperm.mem_iff]

theorem min?_concat (durations : List Int) (d : Int) :
    (durations ++ [d]).min? = some (durations.min?.elim d fun m => Min.min m d) := by
  cases durations with
  | nil => rfl
  | cons first rest =>
    rw [List.cons_append, List.min?_cons', List.min?_cons', List.foldl_append]
    rfl

theorem max?_concat (durations : List Int) (d : Int) :
    (durations ++ [d]).max? = some (durations.max?.elim d fun m => Max.max m d) := by
  cases durations with
  | nil => rfl
  | cons first rest =>
    rw [List.cons_append, List.max?_cons', List.max?_cons', List.foldl_append]
    rfl

theorem toInt_least (m d : Int64) :
    (if d < m then d else m).toInt = Min.min m.toInt d.toInt := by
  split
  · next h => exact (Int.min_eq_right (Int.le_of_lt (Int64.lt_iff_toInt_lt.mp h))).symm
  · next h => exact (Int.min_eq_left (Int.not_lt.mp (mt Int64.lt_iff_toInt_lt.mpr h))).symm

theorem toInt_greatest (m d : Int64) :
    (if m < d then d else m).toInt = Max.max m.toInt d.toInt := by
  split
  · next h => exact (Int.max_eq_right (Int.le_of_lt (Int64.lt_iff_toInt_lt.mp h))).symm
  · next h => exact (Int.max_eq_left (Int.not_lt.mp (mt Int64.lt_iff_toInt_lt.mpr h))).symm

/-- One more occurrence is summarized with the others. -/
theorem Summarizes.record (h : Summarizes s durations) (hdurations : ∀ d ∈ durations, 0 ≤ d)
    {d : Int64} (hd : 0 ≤ d.toInt) :
    Summarizes (s.record (some d)) (durations ++ [d.toInt]) where
  count := by
    show s.count + 1 = _
    rw [h.count, List.length_append]
    exact (UInt64.ofNat_add _ _).symm
  timedCount := by
    show s.timedCount + 1 = _
    rw [h.timedCount, List.length_append]
    exact (UInt64.ofNat_add _ _).symm
  total := by
    show Saturating.add s.total d = _
    rw [h.total, Saturating.add_clamp (List.sum_nonneg hdurations) hd, List.sum_append,
      List.sum_singleton]
  min := by
    rw [min?_concat, ← h.min]
    cases hmin : s.min with
    | none => simp [Statistics.record, hmin]
    | some m => simp [Statistics.record, hmin, toInt_least]
  max := by
    rw [max?_concat, ← h.max]
    cases hmax : s.max with
    | none => simp [Statistics.record, hmax]
    | some m => simp [Statistics.record, hmax, toInt_greatest]

end Statistics

/-! ## Calls -/

namespace ExecutionModel

variable {model : ExecutionModel} {calls others : List (Edge × Int)}

/-- The durations of the calls between two operations. -/
def durations (edge : Edge) (calls : List (Edge × Int)) : List Int :=
  (calls.filter fun call => call.1 = edge).map (·.2)

/-- The model knows exactly these calls: there is an invocation between two operations if there is a
call, and its statistics are those of the calls between the two. -/
structure Accounts (model : ExecutionModel) (calls : List (Edge × Int)) : Prop where
  isSome_invocation? : ∀ caller callee, (model.invocation? caller callee).isSome
    ↔ ∃ duration, (⟨caller, callee⟩, duration) ∈ calls
  invocation : ∀ caller callee entry, model.invocation? caller callee = some entry →
    entry.caller = caller ∧ entry.callee = callee
      ∧ entry.statistics.Summarizes (durations ⟨caller, callee⟩ calls)
  operationDataflows : model.operationDataflows = ∅
  storageDataflows : model.storageDataflows = ∅

theorem accounts_empty : Accounts {} [] where
  isSome_invocation? caller callee := by simp [invocation?]
  invocation caller callee entry h := by simp [invocation?] at h
  operationDataflows := rfl
  storageDataflows := rfl

theorem Accounts.of_perm (h : Accounts model calls) (hperm : calls.Perm others) :
    Accounts model others where
  isSome_invocation? caller callee := by
    simp only [h.isSome_invocation?, hperm.mem_iff]
  invocation caller callee entry hentry := by
    obtain ⟨hcaller, hcallee, hstatistics⟩ := h.invocation caller callee entry hentry
    exact ⟨hcaller, hcallee, hstatistics.of_perm ((hperm.filter _).map _)⟩
  operationDataflows := h.operationDataflows
  storageDataflows := h.storageDataflows

theorem invocation?_addCall (model : ExecutionModel) (caller callee : OperationRef)
    (duration : Option Int64) (otherCaller otherCallee : OperationRef) :
    (model.addCall caller callee duration).2.invocation? otherCaller otherCallee
      = if Edge.mk caller callee = ⟨otherCaller, otherCallee⟩ then
          some (let entry := (model.invocation? caller callee).getD ⟨caller, callee, {}⟩
            { entry with statistics := entry.statistics.record duration })
        else model.invocation? otherCaller otherCallee := by
  simp only [addCall, invocation?, Std.ExtTreeMap.getElem?_insert,
    Std.LawfulEqCmp.compare_eq_iff_eq]

theorem durations_concat (edge : Edge) (calls : List (Edge × Int)) (call : Edge × Int) :
    durations edge (calls ++ [call])
      = durations edge calls ++ if call.1 = edge then [call.2] else [] := by
  rw [durations, List.filter_append, List.map_append]
  congr 1
  split
  · next h => simp [h]
  · next h => simp [h]

theorem Accounts.addCall (h : Accounts model calls) (hcalls : ∀ call ∈ calls, 0 ≤ call.2)
    (caller callee : OperationRef) {d : Int64} (hd : 0 ≤ d.toInt) :
    Accounts (model.addCall caller callee (some d)).2 (calls ++ [(⟨caller, callee⟩, d.toInt)]) where
  isSome_invocation? otherCaller otherCallee := by
    rw [invocation?_addCall]
    split
    · next hsame => simp [← hsame]
    · next hother => simp [h.isSome_invocation?, Ne.symm hother]
  invocation otherCaller otherCallee entry hentry := by
    rw [invocation?_addCall] at hentry
    rw [durations_concat]
    split at hentry
    · next hsame =>
      obtain ⟨rfl, rfl⟩ := Edge.mk.inj hsame
      rw [if_pos rfl]
      have hnonneg : ∀ n ∈ durations ⟨caller, callee⟩ calls, 0 ≤ n := by
        intro n hn
        obtain ⟨call, hcall, rfl⟩ := List.mem_map.mp hn
        exact hcalls call (List.mem_of_mem_filter hcall)
      cases hknown : model.invocation? caller callee with
      -- without an entry there was no call yet, so the statistics start with this one
      | none =>
        rw [hknown] at hentry
        obtain rfl := Option.some.inj hentry
        have hnone : durations ⟨caller, callee⟩ calls = [] := by
          have hcall := (h.isSome_invocation? caller callee).not
          rw [hknown] at hcall
          rw [durations, List.map_eq_nil_iff, List.filter_eq_nil_iff]
          intro call hmem hedge
          obtain ⟨edge, duration⟩ := call
          exact hcall.mp (by simp) ⟨duration, of_decide_eq_true hedge ▸ hmem⟩
        refine ⟨rfl, rfl, ?_⟩
        exact Statistics.Summarizes.record (hnone ▸ Statistics.summarizes_nil) hnonneg hd
      | some known =>
        rw [hknown] at hentry
        obtain rfl := Option.some.inj hentry
        obtain ⟨hcaller, hcallee, hstatistics⟩ := h.invocation caller callee known hknown
        exact ⟨hcaller, hcallee, hstatistics.record hnonneg hd⟩
    · next hother =>
      rw [if_neg hother, List.append_nil]
      exact h.invocation otherCaller otherCallee entry hentry
  operationDataflows := h.operationDataflows
  storageDataflows := h.storageDataflows

/-- Accounts for calls one after the other. -/
def addAll (model : ExecutionModel) (calls : List (Edge × Int64)) : ExecutionModel :=
  calls.foldl (fun model (edge, duration) =>
    (model.addCall edge.source edge.target (some duration)).2) model

/-- **The model accounts for exactly the calls that were added to it.** -/
theorem accounts_addAll (calls : List (Edge × Int64)) (hcalls : ∀ call ∈ calls, 0 ≤ call.2.toInt) :
    Accounts (addAll {} calls) (calls.map fun call => (call.1, call.2.toInt)) := by
  suffices h : ∀ (model : ExecutionModel) (known : List (Edge × Int)),
      (∀ call ∈ known, 0 ≤ call.2) → Accounts model known →
      Accounts (model.addAll calls) (known ++ calls.map fun call => (call.1, call.2.toInt)) from
    h {} [] (by simp) accounts_empty
  induction calls with
  | nil =>
    intro model known _ h
    rwa [List.map_nil, List.append_nil]
  | cons call calls ih =>
    intro model known hknown h
    have hcall : 0 ≤ call.2.toInt := hcalls call List.mem_cons_self
    rw [List.map_cons, List.append_cons]
    refine ih (fun c hc => hcalls c (List.mem_cons_of_mem _ hc)) _ _ ?_
      (h.addCall hknown call.1.source call.1.target hcall)
    simp only [List.mem_append, List.mem_singleton]
    rintro c (hc | rfl)
    · exact hknown c hc
    · exact hcall

end ExecutionModel

end CallTrace.Model
