import CallTrace.Trace
import Mathlib.Data.List.Basic

/-!
# The calls of a tree

The pairs of caller and callee in a tree (`pairs`), and what a tree consists of that was built from
executions (`Builds`): all executions in the order of their indices, and a caller for each of them
but the root. So it has one call for each execution but the root, in the order of entry
(`Builds.calls_eq`).
-/

namespace CallTrace.Trace

variable {id : Int64} {executions rest : List Execution} {trace : Trace}
  {stack : List (Nat × Int32)} {index : Nat} {parents : List (Option Nat)}

theorem exists_of_bind_eq_ok {ε α β : Type} {x : Except ε α} {f : α → Except ε β} {b : β}
    (h : x >>= f = .ok b) : ∃ a, x = .ok a ∧ f a = .ok b := by
  cases x with
  | error fault => cases h
  | ok a => exact ⟨a, rfl, h⟩

theorem exists_of_map_eq_ok {ε α β : Type} {x : Except ε α} {f : α → β} {b : β}
    (h : x.map f = .ok b) : ∃ a, x = .ok a ∧ f a = b := by
  cases x with
  | error fault => cases h
  | ok a => exact ⟨a, rfl, Except.ok.inj h⟩

/-! ## Callers and callees -/

/-- Caller and callee, for each execution that has a caller. -/
def pairs (trace : Trace) : List (Execution × Execution) :=
  trace.executions.zipIdx.filterMap fun (callee, index) =>
    (trace.parentOf? index).map fun caller => (caller, callee)

theorem mem_executions_of_mem_pairs {trace : Trace} {pair : Execution × Execution}
    (h : pair ∈ trace.pairs) : pair.2 ∈ trace.executions := by
  obtain ⟨⟨callee, index⟩, hcallee, hpair⟩ := List.mem_filterMap.mp h
  obtain ⟨caller, _, rfl⟩ := Option.map_eq_some_iff.mp hpair
  exact List.fst_mem_of_mem_zipIdx hcallee

/-- The call of a callee by a caller. -/
def callOf (id : Int64) (pair : Execution × Execution) : Call where
  traceId := id
  caller := pair.1.site
  callee := pair.2.site
  duration := pair.2.duration

/-- Going through a list with the entries of another one is going through it with the indices at
which these entries stand. -/
theorem filterMap_zip_drop {α β γ : Type} (f : α → Option β → Option γ)
    (hnone : ∀ a, f a none = none) (as : List α) (bs : List β) (start : Nat) :
    (as.zip (bs.drop start)).filterMap (fun (a, b) => f a (some b))
      = (as.zipIdx start).filterMap fun (a, index) => f a bs[index]? := by
  induction as generalizing start with
  | nil => rfl
  | cons a as ih =>
    rw [List.zipIdx_cons, List.filterMap_cons, ← ih]
    dsimp only
    by_cases hlt : start < bs.length
    · rw [List.drop_eq_getElem_cons hlt, List.zip_cons_cons, List.filterMap_cons,
        List.getElem?_eq_getElem hlt]
    · have hle : bs.length ≤ start := Nat.not_lt.mp hlt
      simp [List.drop_eq_nil_of_le hle, List.drop_eq_nil_of_le (Nat.le_succ_of_le hle),
        List.getElem?_eq_none hle, hnone]

/-- The calls of a tree are those of its pairs. -/
theorem calls_eq_map_pairs (trace : Trace) : trace.calls = trace.pairs.map (callOf trace.id) := by
  have hzip := filterMap_zip_drop (fun callee parent => (do
    let caller ← trace.executions[← parent.join]?
    return callOf trace.id (caller, callee) : Option Call)) (fun _ => rfl)
    trace.executions trace.parents 0
  rw [List.drop_zero] at hzip
  -- `calls` goes through executions and parents side by side, `pairs` looks each parent up
  rw [calls, pairs, List.map_filterMap]
  refine Eq.trans ?_ (hzip.trans ?_)
  · rfl
  · congr 1
    funext ⟨callee, index⟩
    simp only [parentOf?, Option.bind_eq_bind, Option.map_bind]
    cases trace.parents[index]?.join with
    | none => rfl
    | some parent => cases h : trace.executions[parent]? <;> simp [h]

/-! ## Building a tree -/

/-- How a tree is built from executions. -/
structure Builds (id : Int64) (executions : List Execution) (trace : Trace) : Prop where
  id_eq : trace.id = id
  traceId : ∀ e ∈ executions, e.traceId = id
  executions_eq : trace.executions = inEntryOrder executions
  ordered : checkOrder 0 trace.executions = .ok ()
  nested : nest [] 0 trace.executions = .ok trace.parents

theorem builds_of_reconstruct (h : reconstruct id executions = .ok trace) :
    Builds id executions trace := by
  unfold reconstruct at h
  split at h
  · cases h
  · split at h
    · cases h
    · next hforeign =>
      have htrace : ∀ e ∈ executions, e.traceId = id := fun e he => by
        simpa using List.find?_eq_none.mp hforeign e he
      obtain ⟨_, hordered, h⟩ := exists_of_bind_eq_ok h
      -- the check of the root stands between sorting and nesting and changes nothing
      split at h
      · split at h
        · obtain ⟨_, hthrow, -⟩ := exists_of_bind_eq_ok h
          cases hthrow
        · obtain ⟨parents, hnested, h⟩ := exists_of_bind_eq_ok h
          cases h
          exact ⟨rfl, htrace, rfl, hordered, hnested⟩
      · obtain ⟨parents, hnested, h⟩ := exists_of_bind_eq_ok h
        cases h
        exact ⟨rfl, htrace, rfl, hordered, hnested⟩

/-- Order indices that pass the check count up. -/
theorem eoi_of_checkOrder {start : Nat} (h : checkOrder start executions = .ok ()) :
    executions.map Execution.eoi = (List.range' start executions.length).map Int32.ofNat := by
  induction executions generalizing start with
  | nil => rfl
  | cons e executions ih =>
    unfold checkOrder at h
    dsimp only at h
    split at h
    · cases h
    · next hle =>
      split at h
      · cases h
      · next hge =>
        have heoi : e.eoi = Int32.ofNat start :=
          Int32.le_antisymm (Int32.not_lt.mp hge) (Int32.not_lt.mp hle)
        rw [List.map_cons, List.length_cons, List.range'_succ, List.map_cons, heoi, ih h]

/-- Behind the root every execution has a caller, and that is an earlier one. -/
theorem exists_callers_of_nest (h : nest stack index executions = .ok parents) (hpos : index ≠ 0)
    (hstack : ∀ o ∈ stack, o.1 < index) :
    ∃ callers : List Nat, parents = callers.map some ∧ callers.length = executions.length
      ∧ ∀ caller ∈ callers, caller < index + executions.length := by
  induction executions generalizing stack index parents with
  | nil =>
    cases h
    exact ⟨[], rfl, rfl, by simp⟩
  | cons e executions ih =>
    unfold nest at h
    dsimp only at h
    split at h
    · rw [if_neg hpos] at h
      cases h
    · next caller ess hhead =>
      have hcaller : caller < index :=
        hstack _ ((List.dropWhile_sublist _).mem (List.mem_of_mem_head? hhead))
      split at h
      · obtain ⟨more, hmore, rfl⟩ := exists_of_map_eq_ok h
        obtain ⟨callers, rfl, hlength, hlt⟩ := ih hmore (Nat.succ_ne_zero index) (by
          intro o ho
          rcases List.mem_cons.mp ho with rfl | ho
          · exact Nat.lt_succ_self index
          · exact Nat.lt_succ_of_lt (hstack o ((List.dropWhile_sublist _).mem ho)))
        refine ⟨caller :: callers, rfl, by rw [List.length_cons, List.length_cons, hlength], ?_⟩
        intro other hother
        rw [List.length_cons]
        rcases List.mem_cons.mp hother with rfl | hother
        · omega
        · have := hlt other hother
          omega
      · cases h

/-- The calls of callees by callers at given places. -/
theorem filterMap_zip_map_some {all : List Execution} {callers : List Nat} (rest : List Execution)
    (hlt : ∀ caller ∈ callers, caller < all.length) :
    ((rest.zip (callers.map some)).filterMap fun (callee, parent) => do
        return callOf id (← all[← parent]?, callee))
      = List.zipWith (fun caller callee => callOf id (caller, callee))
          (callers.map fun caller => all[caller]?.getD default) rest := by
  induction rest generalizing callers with
  | nil => simp
  | cons callee rest ih =>
    cases callers with
    | nil => rfl
    | cons caller callers =>
      have hcaller := hlt caller List.mem_cons_self
      rw [List.map_cons, List.zip_cons_cons, List.map_cons, List.zipWith_cons_cons,
        ← ih fun other hother => hlt other (List.mem_cons_of_mem _ hother)]
      simp [List.getElem?_eq_getElem hcaller]

/-- **A tree has one call for each execution but the root, in the order of entry.** -/
theorem Builds.calls_eq (h : Builds id executions trace) :
    ∃ callers : List Execution, callers.length = trace.executions.tail.length
      ∧ trace.calls = List.zipWith (fun caller callee => callOf id (caller, callee)) callers
          trace.executions.tail := by
  have hnested := h.nested
  obtain ⟨traceId, all, parents⟩ := trace
  obtain rfl : traceId = id := h.id_eq
  cases all with
  | nil =>
    cases hnested
    exact ⟨[], rfl, rfl⟩
  | cons root rest =>
    obtain ⟨more, hmore, rfl⟩ : ∃ more, nest [(0, root.ess)] 1 rest = .ok more
        ∧ none :: more = parents := exists_of_map_eq_ok hnested
    obtain ⟨callers, rfl, hlength, hlt⟩ := exists_callers_of_nest hmore (by simp) (by simp)
    refine ⟨callers.map fun caller => (root :: rest)[caller]?.getD default, by simp [hlength], ?_⟩
    refine Eq.trans ?_ (filterMap_zip_map_some rest fun caller hcaller => ?_)
    · rfl
    · have := hlt caller hcaller
      rw [List.length_cons]
      omega

/-- A tree whose executions stand at their order indices and call each other in that order: it has
one call less than executions, and they tell the sites and durations of all but the root. -/
structure InEntryOrder (trace : Trace) : Prop where
  eois : trace.executions.map Execution.eoi = (List.range trace.size).map Int32.ofNat
  length : trace.calls.length = trace.size - 1
  callees : trace.calls.map (fun call => (call.callee, call.duration))
    = trace.executions.tail.map fun e => (e.site, e.duration)

theorem Builds.inEntryOrder (h : Builds id executions trace) : trace.InEntryOrder := by
  obtain ⟨callers, hlength, hcalls⟩ := h.calls_eq
  refine ⟨?_, ?_, ?_⟩
  · rw [eoi_of_checkOrder h.ordered, ← List.range_eq_range', size]
  · rw [hcalls, List.length_zipWith, hlength, Nat.min_self, List.length_tail, size]
  · rw [hcalls, List.map_zipWith]
    refine List.ext_getElem (by simp [hlength]) fun index hleft hright => ?_
    simp [callOf]

end CallTrace.Trace
