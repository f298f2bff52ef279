import CallTrace.Proofs.Trace.Nesting

/-!
# Which executions form a call tree

Executions are put together exactly if they belong to one trace, count from zero and fit to each
other (`IsCallTree`). In what is put together, each execution has as many steps to the root as it is
deep (`IsNested.ancestor?_eq_root_iff`), so the callers make a tree, and the greatest depth is its
height (`IsTreeOf`).
-/

namespace CallTrace.Trace

variable {id : Int64} {executions rest : List Execution} {trace : Trace} {e : Execution}
  {index : Nat}

/-! ## Callers make a tree -/

/-- The index of the caller of the execution at an index. -/
def callerOf? (trace : Trace) (index : Nat) : Option Nat := (trace.parents[index]?).join

/-- The index that so many steps from callee to caller lead to. -/
def ancestor? (trace : Trace) : (steps : Nat) → (index : Nat) → Option Nat
  | 0, index => some index
  | steps + 1, index => (trace.callerOf? index).bind (trace.ancestor? steps)

theorem parentOf?_eq (trace : Trace) (index : Nat) :
    trace.parentOf? index = (trace.callerOf? index).bind (trace.executions[·]?) := rfl

/-- All executions but the root have a caller. -/
structure IsNested (trace : Trace) : Prop where
  depthAt_root : depthAt trace.executions 0 = 0
  length_parents : trace.parents.length = trace.size
  callerOf?_root : trace.callerOf? 0 = none
  caller : ∀ i, 0 < i → i < trace.size →
    ∃ j, trace.callerOf? i = some j ∧ IsCaller trace.executions j i

/-- **An execution is as many steps below the root as it is deep.** -/
theorem IsNested.ancestor?_eq_root_iff (h : IsNested trace) (hlt : index < trace.size) :
    ∃ depth : Nat, depthAt trace.executions index = depth
      ∧ ∀ steps, trace.ancestor? steps index = some 0 ↔ steps = depth := by
  induction index using Nat.strongRecOn with
  | ind index ih =>
    rcases Nat.eq_zero_or_pos index with rfl | hpos
    · refine ⟨0, h.depthAt_root, fun steps => ?_⟩
      cases steps with
      | zero => simp [ancestor?]
      | succ steps => simp [ancestor?, h.callerOf?_root]
    · obtain ⟨caller, hcallerOf, hcaller⟩ := h.caller index hpos hlt
      obtain ⟨depth, hdepth, hsteps⟩ :=
        ih caller hcaller.earlier (Nat.lt_trans hcaller.earlier hlt)
      refine ⟨depth + 1, ?_, fun steps => ?_⟩
      · have := hcaller.shallower
        push_cast
        omega
      · cases steps with
        | zero => simp [ancestor?, Nat.ne_of_gt hpos]
        | succ steps => simp [ancestor?, hcallerOf, hsteps]

/-- An execution is among the callees of another one if that one stands as its caller. -/
theorem mem_childrenOf {caller : Nat} :
    e ∈ trace.childrenOf caller
      ↔ ∃ index, trace.executions[index]? = some e ∧ trace.callerOf? index = some caller := by
  simp only [childrenOf, List.mem_filterMap, callerOf?, Option.join_eq_some_iff]
  constructor
  · rintro ⟨⟨callee, parent⟩, hmem, hif⟩
    obtain ⟨index, hindex⟩ := List.mem_iff_getElem?.mp hmem
    obtain ⟨hcallee, hparent⟩ := List.getElem?_zip_eq_some.mp hindex
    split at hif
    · next hcaller =>
      obtain rfl := Option.some.inj hif
      exact ⟨index, hcallee, hcaller ▸ hparent⟩
    · cases hif
  · rintro ⟨index, hcallee, hparent⟩
    have hindex : (trace.executions.zip trace.parents)[index]? = some (e, some caller) :=
      List.getElem?_zip_eq_some.mpr ⟨hcallee, hparent⟩
    exact ⟨(e, some caller), List.mem_of_getElem? hindex, if_pos rfl⟩

/-- The callees of an execution stand in entry order. -/
theorem childrenOf_sublist (trace : Trace) (caller : Nat) :
    (trace.childrenOf caller).Sublist trace.executions := by
  have hsublist : ∀ (executions : List Execution) (parents : List (Option Nat)),
      ((executions.zip parents).filterMap fun p =>
        if p.2 = some caller then some p.1 else none).Sublist executions := by
    intro executions
    induction executions with
    | nil => simp
    | cons e rest ih =>
      rintro (_ | ⟨parent, parents⟩)
      · simp
      · rw [List.zip_cons_cons, List.filterMap_cons]
        dsimp only
        split
        · exact (ih parents).cons e
        · next callee hcallee =>
          split at hcallee
          · obtain rfl := Option.some.inj hcallee
            exact (ih parents).cons_cons e
          · cases hcallee
  exact hsublist _ _

theorem toInt_deeper (a b : Int32) : (max a b).toInt = max a.toInt b.toInt := by
  show (if a ≤ b then b else a).toInt = _
  split
  · next h => exact (Int.max_eq_right (Int32.le_iff_toInt_le.mp h)).symm
  · next h => exact (Int.max_eq_left (Int.le_of_not_le (mt Int32.le_iff_toInt_le.mpr h))).symm

/-- The greatest of some depths is found by going through them. -/
theorem isGreatest_foldl_max (start : Int32) (rest : List Execution) :
    IsGreatest (insert start.toInt {depth | ∃ e ∈ rest, e.ess.toInt = depth})
      (rest.foldl (fun deepest e => max deepest e.ess) start).toInt := by
  induction rest generalizing start with
  | nil => simp
  | cons e rest ih =>
    obtain ⟨hmem, hle⟩ := ih (max start e.ess)
    rw [toInt_deeper] at hmem hle
    refine ⟨?_, ?_⟩
    · rcases hmem with hmax | ⟨other, hother, hdepth⟩
      · rw [List.foldl_cons, hmax]
        rcases le_total start.toInt e.ess.toInt with h | h
        · exact .inr ⟨e, List.mem_cons_self, (max_eq_right h).symm⟩
        · exact .inl (max_eq_left h)
      · exact .inr ⟨other, List.mem_cons_of_mem e hother, hdepth⟩
    · have hmax := hle (Set.mem_insert _ _)
      rintro depth (rfl | ⟨other, hother, rfl⟩)
      · exact le_trans (le_max_left _ _) hmax
      · rcases List.mem_cons.mp hother with rfl | hother
        · exact le_trans (le_max_right _ _) hmax
        · exact hle (.inr ⟨other, hother, rfl⟩)

/-- The greatest depth is the depth of an execution, and no execution is deeper. -/
theorem isGreatest_maxDepth (hne : trace.executions ≠ []) :
    IsGreatest {depth | ∃ e ∈ trace.executions, e.ess.toInt = depth} trace.maxDepth.toInt := by
  obtain ⟨e, rest, hcons⟩ := List.exists_cons_of_ne_nil hne
  have hgreatest := isGreatest_foldl_max e.ess rest
  have hset : {depth | ∃ other ∈ trace.executions, other.ess.toInt = depth}
      = insert e.ess.toInt {depth | ∃ other ∈ rest, other.ess.toInt = depth} := by
    ext depth
    simp [hcons, eq_comm]
  rw [hset, maxDepth, hcons]
  exact hgreatest

/-! ## The tree -/

/-- The trace is the call tree of these executions. -/
structure IsTreeOf (trace : Trace) (id : Int64) (executions : List Execution) : Prop where
  id_eq : trace.id = id
  perm : trace.executions.Perm executions
  /-- Each execution stands at its order index. -/
  eoi : ∀ (i : Nat) (e : Execution), trace.executions[i]? = some e → e.eoi.toInt = i
  root : trace.parentOf? 0 = none
  /-- The caller is the last execution before that is one shallower, and nothing between the two is
  shallower than the callee. -/
  caller : ∀ i, 0 < i → i < trace.size → ∃ caller,
    trace.callerOf? i = some caller ∧ trace.parentOf? i = trace.executions[caller]?
      ∧ IsGreatest {k | k < i ∧ depthAt trace.executions k = depthAt trace.executions i - 1} caller
      ∧ ∀ k, caller < k → k < i → depthAt trace.executions i ≤ depthAt trace.executions k
  /-- The callers lead to the root in as many steps as the execution is deep. -/
  steps : ∀ i < trace.size, ∃ depth : Nat, depthAt trace.executions i = depth
    ∧ ∀ steps, trace.ancestor? steps i = some 0 ↔ steps = depth
  /-- Each execution but the root is among the callees of exactly one execution. -/
  called : ∀ (i : Nat) (e : Execution), 0 < i → trace.executions[i]? = some e →
    ∃! caller, caller < trace.size ∧ e ∈ trace.childrenOf caller
  uncalled : ∀ e ∈ trace.root?, ∀ caller, e ∉ trace.childrenOf caller
  sublist : ∀ caller, (trace.childrenOf caller).Sublist trace.executions
  /-- The greatest depth is the number of steps on the longest way to the root. -/
  height : ∃ height : Nat, trace.maxDepth.toInt = height
    ∧ IsGreatest {steps | ∃ i < trace.size, trace.ancestor? steps i = some 0} height

/-- The greatest depth is the height. -/
theorem IsNested.exists_height (h : IsNested trace) (hne : trace.executions ≠ []) :
    ∃ height : Nat, trace.maxDepth.toInt = height
      ∧ IsGreatest {steps | ∃ i < trace.size, trace.ancestor? steps i = some 0} height := by
  obtain ⟨⟨deepest, hdeepest, hdepth⟩, hle⟩ := isGreatest_maxDepth hne
  obtain ⟨i, hi⟩ := List.mem_iff_getElem?.mp hdeepest
  have hlt : i < trace.size := (List.getElem?_eq_some_iff.mp hi).1
  obtain ⟨height, hheight, hsteps⟩ := h.ancestor?_eq_root_iff hlt
  rw [depthAt_of_getElem? hi, hdepth] at hheight
  refine ⟨height, hheight, ⟨i, hlt, (hsteps height).mpr rfl⟩, ?_⟩
  rintro steps ⟨k, hk, hroot⟩
  obtain ⟨depth, hdepth, hsteps⟩ := h.ancestor?_eq_root_iff hk
  obtain rfl := (hsteps steps).mp hroot
  have hat : trace.executions[k]? = some trace.executions[k] := List.getElem?_eq_getElem hk
  rw [depthAt_of_getElem? hat] at hdepth
  have := hle ⟨_, List.getElem_mem hk, hdepth⟩
  omega

/-- **Executions with callers make a tree.** -/
theorem IsNested.isTreeOf (h : IsNested trace) (hne : trace.executions ≠ [])
    (hid : trace.id = id) (hperm : trace.executions.Perm executions)
    (heoi : ∀ (i : Nat) (e : Execution), trace.executions[i]? = some e → e.eoi.toInt = i) :
    trace.IsTreeOf id executions := by
  have hchild : ∀ (i : Nat) (e : Execution), trace.executions[i]? = some e → ∀ caller,
      e ∈ trace.childrenOf caller ↔ trace.callerOf? i = some caller := by
    intro i e he caller
    rw [mem_childrenOf]
    constructor
    · rintro ⟨k, hk, hcaller⟩
      have hik : (i : Int) = k := (heoi i e he).symm.trans (heoi k e hk)
      rwa [Int.ofNat_inj.mp hik]
    · exact fun hcaller => ⟨i, he, hcaller⟩
  refine
    { id_eq := hid
      perm := hperm
      eoi := heoi
      root := by rw [parentOf?_eq, h.callerOf?_root]; rfl
      caller := ?_
      steps := fun i hi => h.ancestor?_eq_root_iff hi
      called := ?_
      uncalled := ?_
      sublist := trace.childrenOf_sublist
      height := h.exists_height hne }
  · intro i hpos hlt
    obtain ⟨caller, hcallerOf, hcaller⟩ := h.caller i hpos hlt
    exact ⟨caller, hcallerOf, by rw [parentOf?_eq, hcallerOf]; rfl, hcaller.isGreatest,
      hcaller.between⟩
  · intro i e hpos he
    have hlt : i < trace.size := (List.getElem?_eq_some_iff.mp he).1
    obtain ⟨caller, hcallerOf, hcaller⟩ := h.caller i hpos hlt
    refine ⟨caller, ⟨Nat.lt_trans hcaller.earlier hlt, (hchild i e he caller).mpr hcallerOf⟩, ?_⟩
    rintro other ⟨-, hother⟩
    have hsame := hcallerOf.symm.trans ((hchild i e he other).mp hother)
    exact (Option.some.inj hsame).symm
  · intro e he caller
    have hroot : trace.executions[0]? = some e := List.head?_eq_getElem? ▸ he
    rw [hchild 0 e hroot, h.callerOf?_root]
    simp

/-! ## What is accepted -/

/-- The executions are those of one call tree: they belong to one trace, their order indices count
from zero, the root has no depth, and each other execution is deeper than the root and at most one
deeper than the one entered before it. -/
structure IsCallTree (id : Int64) (executions : List Execution) : Prop where
  nonempty : executions ≠ []
  traceId : ∀ e ∈ executions, e.traceId = id
  eois : (executions.map (·.eoi.toInt)).Perm ((List.range executions.length).map Nat.cast)
  root : ∀ e ∈ executions, e.eoi.toInt = 0 → e.ess.toInt = 0
  nesting : ∀ e ∈ executions, ∀ before ∈ executions, e.eoi.toInt = before.eoi.toInt + 1 →
    1 ≤ e.ess.toInt ∧ e.ess.toInt ≤ before.ess.toInt + 1

/-- What is left to check of executions of one trace. -/
theorem reconstruct_of_traceId {root : Execution} (hid : ∀ e ∈ executions, e.traceId = id)
    (hsorted : inEntryOrder executions = root :: rest) :
    reconstruct id executions = (do
      checkOrder 0 (root :: rest)
      if root.ess ≠ 0 then throw (.invalidRoot root.ess)
      let parents ← nest [] 0 (root :: rest)
      return { id, executions := root :: rest, parents }) := by
  have hne : executions.isEmpty = false := by
    rw [← Bool.not_eq_true, List.isEmpty_iff]
    rintro rfl
    simp [inEntryOrder] at hsorted
  have hforeign : executions.find? (fun e => decide (e.traceId ≠ id)) = none := by
    rw [List.find?_eq_none]
    intro e he
    simpa using hid e he
  rw [reconstruct, hne, hforeign]
  simp only [hsorted, List.head?_cons]
  rfl

theorem traceId_of_reconstruct (h : reconstruct id executions = .ok trace) :
    ∀ e ∈ executions, e.traceId = id := by
  intro e he
  by_contra hne
  unfold reconstruct at h
  split at h
  · cases h
  · split at h
    · cases h
    · next hnone => exact absurd (decide_eq_true hne) (List.find?_eq_none.mp hnone e he)

theorem exists_root (h : executions ≠ []) :
    ∃ root rest, inEntryOrder executions = root :: rest := by
  refine List.exists_cons_of_ne_nil fun hnil => h ?_
  exact (hnil ▸ perm_inEntryOrder executions).symm.eq_nil

/-- Order indices that count from zero count up in entry order. -/
theorem eois_inEntryOrder (hle : executions.length ≤ 2 ^ 31)
    (h : (executions.map (·.eoi.toInt)).Perm ((List.range executions.length).map Nat.cast)) :
    (inEntryOrder executions).map Execution.eoi
      = (List.range executions.length).map Int32.ofNat := by
  have hperm := ((perm_inEntryOrder executions).map (·.eoi.toInt)).trans h
  have hsorted : ((inEntryOrder executions).map (·.eoi.toInt)).Pairwise (· ≤ ·) :=
    List.pairwise_map.mpr ((pairwise_inEntryOrder executions).imp Int32.le_iff_toInt_le.mp)
  have hcounting : ((List.range executions.length).map (Nat.cast : Nat → Int)).Pairwise (· ≤ ·) :=
    List.pairwise_map.mpr (List.pairwise_le_range.imp Int.ofNat_le.mpr)
  have heq := hperm.eq_of_pairwise (fun _ _ _ _ => Int.le_antisymm) hsorted hcounting
  refine List.map_injective_iff.mpr (fun _ _ => Int32.toInt_inj.mp) ?_
  rw [List.map_map, List.map_map]
  refine heq.trans (List.map_congr_left fun i hi => ?_)
  have hi := List.mem_range.mp hi
  exact (Index.toInt_ofNat (by omega)).symm

theorem eoi_of_counting {all : List Execution} (hle : all.length ≤ 2 ^ 31)
    (h : all.map Execution.eoi = (List.range all.length).map Int32.ofNat) {i : Nat}
    (hi : all[i]? = some e) : e.eoi.toInt = i := by
  have hilt := (List.getElem?_eq_some_iff.mp hi).1
  have heoi := congrArg (fun eois : List Int32 => eois[i]?) h
  simp only [List.getElem?_map, hi, List.getElem?_range hilt, Option.map_some,
    Option.some.injEq] at heoi
  rw [heoi, Index.toInt_ofNat (by omega)]

/-- Order indices that are places are the numbers from zero on. -/
theorem eois_perm_of_places {all : List Execution} (hperm : all.Perm executions)
    (heoi : ∀ (i : Nat) (e : Execution), all[i]? = some e → e.eoi.toInt = i) :
    (executions.map (·.eoi.toInt)).Perm ((List.range executions.length).map Nat.cast) := by
  rw [← hperm.length_eq]
  refine (hperm.symm.map _).trans (List.Perm.of_eq (List.ext_getElem (by simp) ?_))
  intro i hi _
  rw [List.length_map] at hi
  rw [List.getElem_map, List.getElem_map, List.getElem_range]
  exact heoi i _ (List.getElem?_eq_getElem hi)

/-- The executions of a trace that count from zero are put together, or one does not fit. -/
theorem reconstruct_of_counting {root : Execution} (hid : ∀ e ∈ executions, e.traceId = id)
    (hsorted : inEntryOrder executions = root :: rest)
    (heois : (root :: rest).map Execution.eoi
      = (List.range (root :: rest).length).map Int32.ofNat) :
    reconstruct id executions
      = if root.ess = 0 then
          (nest [] 0 (root :: rest)).map fun parents => { id, executions := root :: rest, parents }
        else .error (.invalidRoot root.ess) := by
  have hordered : checkOrder 0 (root :: rest) = .ok () :=
    checkOrder_of_counting (heois.trans (by rw [List.range_eq_range']))
  rw [reconstruct_of_traceId hid hsorted, hordered]
  by_cases hroot : root.ess = 0
  · rw [if_pos hroot]
    simp only [hroot, ne_eq, not_true_eq_false, if_false]
    cases nest [] 0 (root :: rest) <;> rfl
  · rw [if_neg hroot]
    simp only [ne_eq, hroot, not_false_eq_true, if_true]
    rfl

/-- Nested executions behind a root. -/
theorem Nested.isNested {root : Execution} {callers : List Nat} (hroot : root.ess = 0)
    (h : Nested (root :: rest) 1 callers) :
    IsNested { id, executions := root :: rest, parents := none :: callers.map some } where
  depthAt_root := by
    rw [depthAt_of_getElem? (List.getElem?_cons_zero), hroot]
    rfl
  length_parents := by
    rw [List.length_cons, List.length_map, Nat.add_comm, h.length]
    rfl
  callerOf?_root := rfl
  caller := by
    intro i hpos hlt
    obtain ⟨i, rfl⟩ := Nat.exists_eq_succ_of_ne_zero (Nat.ne_of_gt hpos)
    have hi : i < callers.length := by
      have := h.length
      have : i + 1 < (root :: rest).length := hlt
      omega
    refine ⟨callers[i], ?_, ?_⟩
    · simp [callerOf?, hi]
    · have hcaller := h.caller i callers[i] (List.getElem?_eq_getElem hi)
      rwa [Nat.add_comm] at hcaller

/-- **The executions of a call tree are put together.** -/
theorem IsCallTree.exists_reconstruct (h : IsCallTree id executions)
    (hlt : executions.length < 2 ^ 31) : ∃ trace, reconstruct id executions = .ok trace := by
  obtain ⟨root, rest, hsorted⟩ := exists_root h.nonempty
  have hperm : (root :: rest).Perm executions := hsorted ▸ perm_inEntryOrder executions
  have hlength := hperm.length_eq
  have heois := eois_inEntryOrder hlt.le h.eois
  rw [hsorted, ← hlength] at heois
  have heoi : ∀ (i : Nat) (e : Execution), (root :: rest)[i]? = some e → e.eoi.toInt = i :=
    fun i e hi => eoi_of_counting (hlength ▸ hlt.le) heois hi
  have hroot : root.ess = 0 := by
    have hmem : root ∈ executions := hperm.mem_iff.mp List.mem_cons_self
    exact Int32.toInt_inj.mp (h.root root hmem (heoi 0 root rfl))
  rw [reconstruct_of_counting h.traceId hsorted heois, if_pos hroot]
  rcases nest_root_cases hroot with ⟨callers, hok, -⟩ | ⟨i, e, -, hmisfit⟩
  · exact ⟨_, by rw [hok]; rfl⟩
  -- the misfit would contradict what is said of it and of the execution before it
  · have hi : i < (root :: rest).length := (List.getElem?_eq_some_iff.mp hmisfit.getElem?).1
    have hpos : 1 ≤ i := hmisfit.le
    have hbefore : (root :: rest)[i - 1]? = some (root :: rest)[i - 1] :=
      List.getElem?_eq_getElem (by omega)
    have heoi' := heoi (i - 1) _ hbefore
    have hfits := h.nesting e (hperm.mem_iff.mp (List.mem_of_getElem? hmisfit.getElem?)) _
      (hperm.mem_iff.mp (List.mem_of_getElem? hbefore))
      (by rw [heoi i e hmisfit.getElem?, heoi']; omega)
    rw [← depthAt_of_getElem? hmisfit.getElem?, ← depthAt_of_getElem? hbefore] at hfits
    exact absurd hfits hmisfit.not_fits

/-- How the tree of executions that were put together came about. -/
theorem exists_nested_of_reconstruct (h : reconstruct id executions = .ok trace)
    (hlt : executions.length < 2 ^ 31) :
    ∃ root rest callers, trace = ⟨id, root :: rest, none :: callers.map some⟩
      ∧ (root :: rest).Perm executions ∧ root.ess = 0 ∧ Nested (root :: rest) 1 callers
      ∧ ∀ (i : Nat) (e : Execution), (root :: rest)[i]? = some e → e.eoi.toInt = i := by
  have hid := traceId_of_reconstruct h
  have hbuilds := builds_of_reconstruct h
  obtain ⟨root, rest, hsorted⟩ : ∃ root rest, inEntryOrder executions = root :: rest := by
    refine exists_root ?_
    rintro rfl
    cases h
  have hperm : (root :: rest).Perm executions := hsorted ▸ perm_inEntryOrder executions
  have heois : (root :: rest).map Execution.eoi
      = (List.range (root :: rest).length).map Int32.ofNat := by
    have hcounting := eoi_of_checkOrder hbuilds.ordered
    rwa [hbuilds.executions_eq, hsorted, ← List.range_eq_range'] at hcounting
  rw [reconstruct_of_counting hid hsorted heois] at h
  split at h
  · next hroot =>
    rcases nest_root_cases hroot with ⟨callers, hok, hnested⟩ | ⟨i, e, herror, -⟩
    · rw [hok] at h
      exact ⟨root, rest, callers, (Except.ok.inj h).symm, hperm, hroot, hnested,
        fun i e hi => eoi_of_counting (hperm.length_eq ▸ hlt.le) heois hi⟩
    · rw [herror] at h
      cases h
  · cases h

/-- **Only the executions of a call tree are put together.** -/
theorem isCallTree_of_reconstruct (h : reconstruct id executions = .ok trace)
    (hlt : executions.length < 2 ^ 31) : IsCallTree id executions := by
  obtain ⟨root, rest, callers, -, hperm, hroot, hnested, heoi⟩ :=
    exists_nested_of_reconstruct h hlt
  have hat : ∀ e ∈ executions, ∃ i, (root :: rest)[i]? = some e := fun e he =>
    List.mem_iff_getElem?.mp (hperm.mem_iff.mpr he)
  refine ⟨?_, traceId_of_reconstruct h, eois_perm_of_places hperm heoi, ?_, ?_⟩
  · rintro rfl
    exact absurd hperm.length_eq (by simp)
  · intro e he hzero
    obtain ⟨i, hi⟩ := hat e he
    have hi0 : i = 0 := Int.ofNat_inj.mp ((heoi i e hi).symm.trans hzero)
    subst hi0
    obtain rfl := Option.some.inj hi
    rw [hroot]
    rfl
  · intro e he before hbefore hnext
    obtain ⟨i, hi⟩ := hat e he
    obtain ⟨k, hk⟩ := hat before hbefore
    rw [heoi i e hi, heoi k before hk] at hnext
    obtain rfl : i = k + 1 := by omega
    have hfits := hnested.fits (k + 1) (Nat.le_add_left 1 k) (List.getElem?_eq_some_iff.mp hi).1
    rwa [FitsAt, Nat.add_sub_cancel, depthAt_of_getElem? hi, depthAt_of_getElem? hk] at hfits

theorem isTreeOf_of_reconstruct (h : reconstruct id executions = .ok trace)
    (hlt : executions.length < 2 ^ 31) : trace.IsTreeOf id executions := by
  obtain ⟨root, rest, callers, rfl, hperm, hroot, hnested, heoi⟩ :=
    exists_nested_of_reconstruct h hlt
  exact (hnested.isNested hroot).isTreeOf (List.cons_ne_nil root rest) rfl hperm heoi

/-- **Exactly the executions of a call tree are put together, and to this tree.** -/
theorem reconstruct_accepts_call_trees (id : Int64) (executions : List Execution)
    (hlt : executions.length < 2 ^ 31) :
    ((∃ trace, reconstruct id executions = .ok trace) ↔ IsCallTree id executions)
      ∧ ∀ trace, reconstruct id executions = .ok trace → trace.IsTreeOf id executions := by
  refine ⟨⟨?_, fun h => h.exists_reconstruct hlt⟩, fun trace h => isTreeOf_of_reconstruct h hlt⟩
  rintro ⟨trace, h⟩
  exact isCallTree_of_reconstruct h hlt

/-- An operation that calls two others, of which the first one calls a third, in exit order. -/
theorem reconstruct_in_exit_order :
    let executions : List Execution :=
      [⟨"C", "h()", "", 7, 20, 98, "s", 2, 2⟩, ⟨"B", "g()", "", 7, 10, 99, "s", 1, 1⟩,
        ⟨"B", "k()", "", 7, 100, 101, "s", 3, 1⟩, ⟨"A", "f()", "", 7, 0, 102, "s", 0, 0⟩]
    executions.length < 2 ^ 31
      ∧ ∃ trace, reconstruct 7 executions = .ok trace ∧ trace.IsTreeOf 7 executions := by
  intro executions
  have hlt : executions.length < 2 ^ 31 := by decide
  have hcallTree : IsCallTree 7 executions := ⟨by decide, by decide, by decide, by decide, by decide⟩
  obtain ⟨haccepts, htree⟩ := reconstruct_accepts_call_trees 7 executions hlt
  obtain ⟨trace, htrace⟩ := haccepts.mpr hcallTree
  exact ⟨hlt, trace, htrace, htree trace htrace⟩

end CallTrace.Trace
