import CallTrace.Proofs.Stages.Conservation
import CallTrace.Proofs.Stages.PendingTrace

/-!
# Traces recorded in one place

In one place executions are recorded when they end, so those of a call tree arrive in exit order,
and the root is the last one. A trace that arrives so looks whole when the root has arrived
(`LocalTrace.looksWhole_stream`) and not before (`LocalTrace.eq_nil_of_looksWhole`), and it is put
together to the tree in whatever order its executions are (`LocalTrace.outputs_eq`).
-/

namespace CallTrace

open Trace (LooksWhole callOf executionsOf idsOf)
open TraceReconstruction (Group Output)

/-- A call tree whose executions carry its id, their places in the order of entry and their
depths. -/
structure LocalTrace where
  id : Int64
  root : Execution
  inner : CallForest Execution
  id_ne : id ≠ noTrace
  traceId : ∀ e ∈ (CallForest.call root inner .none).entries, e.traceId = id
  eoi : ∀ p ∈ (CallForest.call root inner .none).entries.zipIdx, p.1.eoi.toInt = p.2
  ess : ∀ p ∈ (CallForest.call root inner .none).placed 0, p.1.ess.toInt = p.2

namespace LocalTrace

/-- The call tree. -/
def tree (t : LocalTrace) : CallForest Execution := .call t.root t.inner .none

/-- The executions in the order in which they arrive. -/
def stream (t : LocalTrace) : List Execution := t.tree.exits

/-- The trace that is put together. -/
def trace (t : LocalTrace) : Trace where
  id := t.id
  executions := t.tree.entries
  parents := t.tree.parents none 0

/-- What is given out for the trace: the trace and all calls in it. -/
def outputs (t : LocalTrace) : List Output :=
  .trace t.trace :: ((t.inner.calledBy t.root).map (callOf t.id)).map .call

variable {t : LocalTrace} {e : Execution} {before after : List Execution}

theorem stream_eq (t : LocalTrace) : t.stream = t.inner.exits ++ [t.root] := rfl

theorem entries_eq (t : LocalTrace) : t.tree.entries = t.root :: t.inner.entries := by
  rw [tree, CallForest.entries, CallForest.entries, List.append_nil]

theorem toInt_eoi {i : Nat} (h : t.tree.entries[i]? = some e) : e.eoi.toInt = i :=
  t.eoi (e, i) (List.mk_mem_zipIdx_iff_getElem?.mpr h)

theorem stream_perm (t : LocalTrace) : t.stream.Perm t.tree.entries := t.tree.exits_perm_entries

theorem traceId_of_mem (h : e ∈ t.stream) : e.traceId = t.id :=
  t.traceId e (t.stream_perm.mem_iff.mp h)

/-- Below the root the order indices are positive. -/
theorem eoi_ne_zero (h : e ∈ t.inner.exits) : e.eoi ≠ 0 := by
  obtain ⟨i, hi⟩ := List.mem_iff_getElem?.mp (t.inner.exits_perm_entries.mem_iff.mp h)
  have hentry : t.tree.entries[i + 1]? = some e := by rw [entries_eq, List.getElem?_cons_succ, hi]
  rintro hzero
  have hplace := toInt_eoi hentry
  rw [hzero, Int32.toInt_zero] at hplace
  omega

theorem root_eoi (t : LocalTrace) : t.root.eoi = 0 :=
  Int32.toInt_inj.mp (toInt_eoi (i := 0) rfl)

theorem root_ess (t : LocalTrace) : t.root.ess = 0 :=
  Int32.toInt_inj.mp (t.ess (t.root, 0) List.mem_cons_self)

theorem root_notMem_exits (t : LocalTrace) : t.root ∉ t.inner.exits := fun h =>
  eoi_ne_zero h t.root_eoi

/-- The executions have correlation data. -/
theorem isCorrelated_of_mem (h : e ∈ t.stream) : e.isCorrelated = true := by
  have hentry := t.stream_perm.mem_iff.mp h
  have heoi : e.eoi ≠ unset := by
    obtain ⟨i, hi⟩ := List.mem_iff_getElem?.mp hentry
    rintro hunset
    have hplace := toInt_eoi hi
    rw [hunset, show unset.toInt = -1 from rfl] at hplace
    omega
  have hess : e.ess ≠ unset := by
    obtain ⟨p, hp, rfl⟩ := List.mem_map.mp (t.tree.map_fst_placed 0 ▸ hentry)
    rintro hunset
    have hdepth := t.ess p hp
    rw [hunset, show unset.toInt = -1 from rfl] at hdepth
    omega
  rw [Execution.isCorrelated, t.traceId e hentry]
  simp [t.id_ne, heoi, hess]

/-! ## Putting the trace together -/

/-- There are indices for all executions. -/
theorem length_entries_le (t : LocalTrace) : t.tree.entries.length ≤ 2 ^ 31 := by
  have hlength : t.tree.entries.length = t.inner.entries.length + 1 := by
    rw [entries_eq, List.length_cons]
  have hlast : t.tree.entries[t.inner.entries.length]?
      = some t.tree.entries[t.inner.entries.length] := List.getElem?_eq_getElem (by omega)
  have hplace := toInt_eoi hlast
  have hlt := Int32.toInt_lt t.tree.entries[t.inner.entries.length].eoi
  omega

theorem numbers (t : LocalTrace) : Trace.Numbers t.tree t.id t.tree.entries where
  traceId := t.traceId
  eoi := by
    refine List.ext_getElem? fun i => ?_
    rw [List.getElem?_map, List.getElem?_map]
    by_cases hlt : i < t.tree.entries.length
    · have hentry : t.tree.entries[i]? = some t.tree.entries[i] := List.getElem?_eq_getElem hlt
      rw [hentry, List.getElem?_range hlt, Option.map_some, Option.map_some,
        Index.eq_ofNat (toInt_eoi hentry)]
    · rw [List.getElem?_eq_none (by omega), List.getElem?_eq_none (by simpa using hlt)]
      rfl
  ess := by
    rw [← t.tree.map_fst_placed 0, List.map_map]
    exact List.map_congr_left fun p hp => Index.eq_ofNat (t.ess p hp)

/-- **The executions of a trace are put together to its tree**, in whatever order they are. -/
theorem outputs_eq (t : LocalTrace) (emitsInvalid : Bool) {executions : List Execution}
    (hperm : executions.Perm t.stream) :
    Group.outputs emitsInvalid { id := t.id, executions } = t.outputs := by
  have hbuilt : Trace.reconstruct t.id executions = .ok t.trace :=
    Trace.reconstruct_of_perm_of_le t.numbers (hperm.trans t.stream_perm) t.length_entries_le
  have hcalls : t.trace.calls = (t.inner.calledBy t.root).map (callOf t.id) :=
    Trace.calls_of_tree t.id t.root t.inner
  unfold Group.outputs
  dsimp only
  rw [hbuilt, outputs, ← hcalls]

/-! ## Looking whole -/

theorem looksWhole_stream (t : LocalTrace) : LooksWhole t.stream :=
  (Trace.isWhole_iff.mp
    { counted := Trace.eois_perm_of_places t.stream_perm.symm fun _ _ => toInt_eoi
      root := ⟨t.root, by simp [stream_eq], t.root_eoi, t.root_ess⟩ }).1

/-- Only what ends with the root looks whole. -/
theorem eq_nil_of_looksWhole (hstream : before ++ after = t.stream) (h : LooksWhole before) :
    after = [] := by
  by_contra hne
  obtain ⟨front, last, rfl⟩ := List.eq_nil_or_concat after |>.resolve_left hne
  obtain ⟨root, hroot, hzero, -⟩ := h.root
  rw [stream_eq, List.concat_eq_append, ← List.append_assoc] at hstream
  have hfront := (List.append_inj' hstream rfl).1
  exact eoi_ne_zero (hfront ▸ List.mem_append_left front hroot) hzero

/-- The execution with which a stream ends is the root, and no other one is. -/
theorem eq_root_iff (hstream : before ++ e :: after = t.stream) : e = t.root ↔ after = [] := by
  constructor
  · rintro rfl
    by_contra hne
    obtain ⟨front, last, rfl⟩ := List.eq_nil_or_concat after |>.resolve_left hne
    rw [stream_eq, List.concat_eq_append, ← List.cons_append, ← List.append_assoc] at hstream
    have hfront := (List.append_inj' hstream rfl).1
    exact t.root_notMem_exits (hfront ▸ by simp)
  · rintro rfl
    rw [stream_eq] at hstream
    exact List.singleton_inj.mp (List.append_inj' hstream rfl).2

end LocalTrace

/-! ## Interleavings -/

/-- The executions of some traces arrive, those of each trace in exit order. -/
structure Interleaves (traces : List LocalTrace) (executions : List Execution) : Prop where
  nodup : (traces.map LocalTrace.id).Nodup
  stream : ∀ t ∈ traces, executionsOf t.id executions = t.stream
  traceId : ∀ e ∈ executions, ∃ t ∈ traces, e.traceId = t.id

namespace Interleaves

variable {traces : List LocalTrace} {executions before after : List Execution} {id : Int64}
  {e : Execution}

theorem mem_idsOf (h : Interleaves traces executions) :
    id ∈ idsOf executions ↔ id ∈ traces.map LocalTrace.id := by
  rw [Trace.mem_idsOf, List.mem_map]
  constructor
  · rintro ⟨e, he, rfl⟩
    obtain ⟨t, ht, hid⟩ := h.traceId e he
    exact ⟨t, ht, hid.symm⟩
  · rintro ⟨t, ht, rfl⟩
    have hroot : t.root ∈ executionsOf t.id executions := by
      rw [h.stream t ht, LocalTrace.stream_eq]
      simp
    exact ⟨t.root, List.mem_of_mem_filter hroot, of_decide_eq_true (List.mem_filter.mp hroot).2⟩

theorem mem_stream (h : Interleaves traces executions) (he : e ∈ executions) :
    ∃ t ∈ traces, e ∈ t.stream := by
  obtain ⟨t, ht, hid⟩ := h.traceId e he
  exact ⟨t, ht, h.stream t ht ▸ List.mem_filter.mpr ⟨he, decide_eq_true hid⟩⟩

/-- What has arrived of a trace and what is still to come. -/
theorem exists_stream (h : Interleaves traces (before ++ after))
    (hid : id ∈ idsOf (before ++ after)) :
    ∃ t ∈ traces, t.id = id ∧ executionsOf id before ++ executionsOf id after = t.stream := by
  obtain ⟨t, ht, rfl⟩ := List.mem_map.mp (h.mem_idsOf.mp hid)
  exact ⟨t, ht, rfl, by rw [← Trace.executionsOf_append, h.stream t ht]⟩

/-- A trace looks whole when its last execution has arrived, and not before. -/
theorem looksWhole_iff (h : Interleaves traces (before ++ after)) (hid : id ∈ idsOf before) :
    LooksWhole (executionsOf id before) ↔ id ∉ idsOf after := by
  obtain ⟨t, -, -, hstream⟩ := h.exists_stream (Trace.mem_idsOf_append.mpr (.inl hid))
  constructor
  · intro hwhole hlater
    exact Trace.executionsOf_ne_nil hlater (LocalTrace.eq_nil_of_looksWhole hstream hwhole)
  · intro hlast
    rw [Trace.executionsOf_eq_nil hlast, List.append_nil] at hstream
    exact hstream ▸ t.looksWhole_stream

end Interleaves

end CallTrace
