import CallTrace.Proofs.Trace.CallTree
import Mathlib.Data.List.Nodup

/-!
# What a fault says about the executions

Executions of one trace that form no call tree are refused with a fault, and what the fault says is
so (`Explains`), with two exceptions. Order indices are compared with the places of the sorted
executions, so that a negative one counts as a duplicate, whether or not another execution carries
it, and places beyond the last index count as negative. The fault is the same for every order of the
executions (`reconstruct_perm`).
-/

namespace CallTrace.Trace

variable {id : Int64} {executions others front rest : List Execution} {fault : TraceError}
  {e other root : Execution} {eoi bound : Int32}

/-! ## Causes -/

/-- How many executions carry an order index. -/
def carriers (eoi : Int32) (executions : List Execution) : Nat :=
  (executions.map Execution.eoi).count eoi

/-- No order index is negative, and each one below the bound is carried by exactly one
execution. -/
structure CountsTo (bound : Int32) (executions : List Execution) : Prop where
  nonneg : ∀ e ∈ executions, 0 ≤ e.eoi
  once : ∀ eoi, 0 ≤ eoi → eoi < bound → carriers eoi executions = 1

/-- The order indices are the numbers from zero on, each once. -/
def IsCounted (executions : List Execution) : Prop :=
  (executions.map (·.eoi.toInt)).Perm ((List.range executions.length).map Nat.cast)

/-- The execution is deeper than the root and at most one deeper than the one entered before it. -/
def FitsInto (executions : List Execution) (e : Execution) : Prop :=
  1 ≤ e.ess.toInt ∧ ∀ before ∈ executions, e.eoi.toInt = before.eoi.toInt + 1 →
    e.ess.toInt ≤ before.ess.toInt + 1

/-- What is the matter with the executions of one trace that are refused with a fault. -/
def Explains (executions : List Execution) : TraceError → Prop
  | .empty => executions = []
  | .foreignExecution _ _ => False
  | .duplicateEoi eoi =>
    (CountsTo eoi executions ∧ 2 ≤ carriers eoi executions)
      -- the least of all is negative, and nothing is said of how many carry it
      ∨ (eoi < 0 ∧ IsLeast {k | ∃ e ∈ executions, e.eoi = k} eoi)
  | .eoiGap expected found =>
    (0 ≤ expected ∧ CountsTo expected executions ∧ carriers expected executions = 0
        ∧ IsLeast {k | expected < k ∧ ∃ e ∈ executions, e.eoi = k} found)
      -- all indices are in use, the last one more than once
      ∨ (expected = Int32.minValue ∧ found = Int32.maxValue ∧ CountsTo Int32.maxValue executions
        ∧ 2 ≤ carriers Int32.maxValue executions)
  | .invalidRoot ess =>
    IsCounted executions ∧ ess ≠ 0 ∧ ∃ root ∈ executions, root.eoi = 0 ∧ root.ess = ess
  | .invalidNesting eoi ess =>
    IsCounted executions ∧ (∃ root ∈ executions, root.eoi = 0 ∧ root.ess = 0)
      ∧ (∃ e ∈ executions, e.eoi = eoi ∧ e.ess = ess ∧ 0 < eoi ∧ ¬ FitsInto executions e)
      ∧ ∀ earlier ∈ executions, 0 < earlier.eoi → earlier.eoi < eoi → FitsInto executions earlier

theorem carriers_of_perm (hperm : others.Perm executions) (eoi : Int32) :
    carriers eoi others = carriers eoi executions :=
  (hperm.map _).count_eq eoi

theorem CountsTo.of_perm (h : CountsTo bound others) (hperm : others.Perm executions) :
    CountsTo bound executions where
  nonneg e he := h.nonneg e (hperm.mem_iff.mpr he)
  once eoi hnonneg hlt := carriers_of_perm hperm eoi ▸ h.once eoi hnonneg hlt

/-- What is the matter does not depend on the order. -/
theorem Explains.of_perm (h : Explains others fault) (hperm : others.Perm executions) :
    Explains executions fault := by
  have hcounted : IsCounted others → IsCounted executions := fun hcounted => by
    rw [IsCounted, ← hperm.length_eq]
    exact (hperm.symm.map _).trans hcounted
  have hfits : ∀ e, FitsInto others e ↔ FitsInto executions e := fun e => by
    simp only [FitsInto, hperm.mem_iff]
  cases fault with
  | empty => exact (h ▸ hperm).nil_eq.symm
  | foreignExecution => exact h
  | duplicateEoi eoi =>
    rw [Explains, ← carriers_of_perm hperm]
    simp only [← hperm.mem_iff]
    exact h.imp (fun h => ⟨h.1.of_perm hperm, h.2⟩) fun h => h
  | eoiGap expected found =>
    simp only [Explains, ← carriers_of_perm hperm, ← hperm.mem_iff]
    exact h.imp (fun h => ⟨h.1, h.2.1.of_perm hperm, h.2.2⟩)
      (fun h => ⟨h.1, h.2.1, h.2.2.1.of_perm hperm, h.2.2.2⟩)
  | invalidRoot ess =>
    simp only [Explains, ← hperm.mem_iff]
    exact ⟨hcounted h.1, h.2⟩
  | invalidNesting eoi ess =>
    simp only [Explains, ← hperm.mem_iff, ← hfits]
    exact ⟨hcounted h.1, h.2⟩

/-! ## The first place at which counting ends -/

/-- Either all order indices count up from the start, or there is a first one that does not. -/
theorem checkOrder_cases (start : Nat) (executions : List Execution) :
    checkOrder start executions = .ok ()
    ∨ ∃ front e rest, executions = front ++ e :: rest
      ∧ front.map Execution.eoi = (List.range' start front.length).map Int32.ofNat
      ∧ (e.eoi < .ofNat (start + front.length)
          ∧ checkOrder start executions = .error (.duplicateEoi e.eoi)
        ∨ Int32.ofNat (start + front.length) < e.eoi
          ∧ checkOrder start executions
            = .error (.eoiGap (.ofNat (start + front.length)) e.eoi)) := by
  induction executions generalizing start with
  | nil => exact .inl rfl
  | cons e executions ih =>
    rw [checkOrder]
    split
    · next hbelow => exact .inr ⟨[], e, executions, rfl, rfl, .inl ⟨hbelow, rfl⟩⟩
    · next hnotBelow =>
      split
      · next habove => exact .inr ⟨[], e, executions, rfl, rfl, .inr ⟨habove, rfl⟩⟩
      · next hnotAbove =>
        have heoi : e.eoi = .ofNat start :=
          Int32.le_antisymm (Int32.not_lt.mp hnotAbove) (Int32.not_lt.mp hnotBelow)
        rcases ih (start + 1) with hok | ⟨front, misplaced, rest, rfl, hcounting, herror⟩
        · exact .inl hok
        · refine .inr ⟨e :: front, misplaced, rest, rfl, ?_, ?_⟩
          · rw [List.map_cons, List.length_cons, List.range'_succ, List.map_cons, heoi, hcounting]
          · rwa [List.length_cons, ← Nat.add_assoc, Nat.add_right_comm]

/-- Sorted executions that count from zero are no more than there are indices. -/
theorem length_le_of_counting
    (hcounting : front.map Execution.eoi = (List.range front.length).map Int32.ofNat)
    (hsorted : front.Pairwise fun a b => a.eoi ≤ b.eoi) : front.length ≤ 2 ^ 31 := by
  by_contra hlong
  have hat : ∀ i (hi : i < front.length), front[i].eoi = .ofNat i := fun i hi => by
    have := congrArg (fun eois : List Int32 => eois[i]?) hcounting
    simpa [List.getElem?_eq_getElem hi, List.getElem?_range hi] using this
  have hle := List.pairwise_iff_getElem.mp hsorted (2 ^ 31 - 1) (2 ^ 31) (by omega) (by omega)
    (by omega)
  rw [hat, hat] at hle
  exact absurd hle (by decide)

theorem mem_counting (hle : front.length ≤ 2 ^ 31) (hnonneg : 0 ≤ eoi) :
    eoi ∈ (List.range front.length).map Int32.ofNat ↔ eoi.toInt < front.length := by
  rw [Int32.le_iff_toInt_le, Int32.toInt_zero] at hnonneg
  simp only [List.mem_map, List.mem_range]
  constructor
  · rintro ⟨k, hk, rfl⟩
    rw [Index.toInt_ofNat (by omega)]
    exact_mod_cast hk
  · intro hlt
    refine ⟨eoi.toInt.toNat, by omega, Int32.toInt_inj.mp ?_⟩
    rw [Index.toInt_ofNat (by omega)]
    omega

/-- Executions that count from zero carry each index once. -/
theorem carriers_of_counting (hle : front.length ≤ 2 ^ 31)
    (hcounting : front.map Execution.eoi = (List.range front.length).map Int32.ofNat)
    (hnonneg : 0 ≤ eoi) :
    carriers eoi front = if eoi.toInt < front.length then 1 else 0 := by
  have hnodup : ((List.range front.length).map Int32.ofNat).Nodup :=
    List.nodup_range.map_on fun i hi j hj h => by
      rw [List.mem_range] at hi hj
      exact Index.inj (by omega) (by omega) h
  rw [carriers, hcounting, hnodup.count]
  simp only [mem_counting hle hnonneg]

/-! ## Indices out of place -/

section

variable (hsorted : (front ++ e :: rest).Pairwise fun a b => a.eoi ≤ b.eoi)
  (hcounting : front.map Execution.eoi = (List.range front.length).map Int32.ofNat)

include hsorted in
theorem eoi_le_of_mem (h : other ∈ e :: rest) : e.eoi ≤ other.eoi := by
  rcases List.mem_cons.mp h with rfl | hrest
  · exact Int32.le_refl _
  · exact (List.pairwise_cons.mp (List.pairwise_append.mp hsorted).2.1).1 other hrest

include hsorted in
/-- Nothing behind carries an index below that of the next execution. -/
theorem carriers_append_of_lt (hlt : eoi < e.eoi) :
    carriers eoi (front ++ e :: rest) = carriers eoi front := by
  have hrest : carriers eoi (e :: rest) = 0 := by
    refine List.count_eq_zero.mpr fun hmem => ?_
    obtain ⟨other, hother, rfl⟩ := List.mem_map.mp hmem
    exact Int32.lt_irrefl (Int32.lt_of_lt_of_le hlt (eoi_le_of_mem hsorted hother))
  rw [carriers, List.map_append, List.count_append, ← carriers, ← carriers, hrest, Nat.add_zero]

include hsorted hcounting

theorem length_front_le : front.length ≤ 2 ^ 31 :=
  length_le_of_counting hcounting (List.pairwise_append.mp hsorted).1

theorem eoi_of_mem_front (h : other ∈ front) :
    0 ≤ other.eoi ∧ other.eoi.toInt < front.length := by
  have hmem : other.eoi ∈ (List.range front.length).map Int32.ofNat :=
    hcounting ▸ List.mem_map_of_mem h
  have hle := length_front_le hsorted hcounting
  have hnonneg : 0 ≤ other.eoi := by
    obtain ⟨k, hk, heoi⟩ := List.mem_map.mp hmem
    rw [List.mem_range] at hk
    exact heoi ▸ Int32.not_lt.mp (Index.not_neg (by omega))
  exact ⟨hnonneg, (mem_counting hle hnonneg).mp hmem⟩

/-- Everything up to an index is counted if the next execution comes no earlier. -/
theorem countsTo_of_counting (hle : bound ≤ e.eoi) (hnonneg : 0 ≤ bound)
    (hbound : bound.toInt ≤ front.length) : CountsTo bound (front ++ e :: rest) where
  nonneg other hother := by
    rcases List.mem_append.mp hother with hfront | hrest
    · exact (eoi_of_mem_front hsorted hcounting hfront).1
    · exact Int32.le_trans hnonneg (Int32.le_trans hle (eoi_le_of_mem hsorted hrest))
  once eoi heoi hlt := by
    rw [carriers_append_of_lt hsorted (Int32.lt_of_lt_of_le hlt hle),
      carriers_of_counting (length_front_le hsorted hcounting) hcounting heoi, if_pos]
    have := Int32.lt_iff_toInt_lt.mp hlt
    omega

/-- An index that has been counted is carried by the next execution as well. -/
theorem two_le_carriers (hnonneg : 0 ≤ e.eoi) (hlt : e.eoi.toInt < front.length) :
    2 ≤ carriers e.eoi (front ++ e :: rest) := by
  have hfront : carriers e.eoi front = 1 := by
    rw [carriers_of_counting (length_front_le hsorted hcounting) hcounting hnonneg, if_pos hlt]
  have hrest : 0 < carriers e.eoi (e :: rest) := List.count_pos_iff.mpr (by simp)
  rw [carriers, List.map_append, List.count_append, ← carriers, ← carriers, hfront]
  omega

theorem explains_of_below (hbelow : e.eoi < .ofNat front.length) :
    Explains (front ++ e :: rest) (.duplicateEoi e.eoi) := by
  have hlength := length_front_le hsorted hcounting
  by_cases hneg : e.eoi < 0
  · refine .inr ⟨hneg, ⟨e, by simp, rfl⟩, ?_⟩
    rintro _ ⟨other, hother, rfl⟩
    rcases List.mem_append.mp hother with hfront | hrest
    · have hcounted := (eoi_of_mem_front hsorted hcounting hfront).1
      exact Int32.le_of_lt (Int32.lt_of_lt_of_le hneg hcounted)
    · exact eoi_le_of_mem hsorted hrest
  · have hnonneg : 0 ≤ e.eoi := Int32.not_lt.mp hneg
    have hlt : e.eoi.toInt < front.length := by
      rcases Nat.lt_or_eq_of_le hlength with hshort | hfull
      · rwa [Int32.lt_iff_toInt_lt, Index.toInt_ofNat hshort] at hbelow
      · have := e.eoi.toInt_lt
        omega
    exact .inl ⟨countsTo_of_counting hsorted hcounting (Int32.le_refl _) hnonneg (Int.le_of_lt hlt),
      two_le_carriers hsorted hcounting hnonneg hlt⟩

theorem explains_of_above (habove : Int32.ofNat front.length < e.eoi) :
    Explains (front ++ e :: rest) (.eoiGap (.ofNat front.length) e.eoi) := by
  have hlength := length_front_le hsorted hcounting
  rcases Nat.lt_or_eq_of_le hlength with hshort | hfull
  · have hplace := Index.toInt_ofNat hshort
    have hnonneg : (0 : Int32) ≤ .ofNat front.length := Int32.not_lt.mp (Index.not_neg hshort)
    refine .inl ⟨hnonneg, ?_, ?_, ⟨habove, e, by simp, rfl⟩, ?_⟩
    · exact countsTo_of_counting hsorted hcounting (Int32.le_of_lt habove) hnonneg hplace.le
    · rw [carriers_append_of_lt hsorted habove, carriers_of_counting hlength hcounting hnonneg,
        if_neg (by omega)]
    · rintro _ ⟨hbehind, other, hother, rfl⟩
      rcases List.mem_append.mp hother with hfront | hrest
      · have hcounted := (eoi_of_mem_front hsorted hcounting hfront).2
        rw [Int32.lt_iff_toInt_lt, hplace] at hbehind
        omega
      · exact eoi_le_of_mem hsorted hrest
  -- all indices have been counted, so that there is none left for the next execution
  · have hexpected : Int32.ofNat front.length = Int32.minValue := by rw [hfull]; rfl
    have hlast : e.eoi = Int32.maxValue := by
      have hmem : Int32.maxValue ∈ front.map Execution.eoi := by
        rw [hcounting, mem_counting hlength (by decide), hfull]
        decide
      obtain ⟨last, hlast, heoi⟩ := List.mem_map.mp hmem
      have hle := (List.pairwise_append.mp hsorted).2.2 last hlast e List.mem_cons_self
      exact Int32.le_antisymm (Int32.le_maxValue _) (heoi ▸ hle)
    have hnonneg : 0 ≤ e.eoi := by rw [hlast]; decide
    have hlt : e.eoi.toInt < front.length := by rw [hlast, hfull]; decide
    refine .inr ⟨hexpected, hlast, ?_, ?_⟩
    · rw [← hlast]
      exact countsTo_of_counting hsorted hcounting (Int32.le_refl _) hnonneg (Int.le_of_lt hlt)
    · rw [← hlast]
      exact two_le_carriers hsorted hcounting hnonneg hlt

end

/-! ## Faults -/

/-- The first execution that does not fit is the first one in the order of indices. -/
theorem Misfit.explains {i : Nat} (h : Misfit (root :: rest) 1 i e) (hroot : root.ess = 0)
    (hle : (root :: rest).length ≤ 2 ^ 31)
    (hcounting : (root :: rest).map Execution.eoi
      = (List.range (root :: rest).length).map Int32.ofNat) :
    Explains (root :: rest) (.invalidNesting e.eoi e.ess) := by
  have heoi : ∀ (i : Nat) (e : Execution), (root :: rest)[i]? = some e → e.eoi.toInt = i :=
    fun i e hi => eoi_of_counting hle hcounting hi
  -- the execution before one in entry order is the one that carries the index before
  have hfits : ∀ (k : Nat) (other : Execution), 1 ≤ k → (root :: rest)[k]? = some other →
      (FitsInto (root :: rest) other ↔ FitsAt (root :: rest) k) := by
    intro k other hk hother
    obtain ⟨k, rfl⟩ := Nat.exists_eq_succ_of_ne_zero (Nat.ne_of_gt hk)
    have hlt : k < (root :: rest).length := by
      have := (List.getElem?_eq_some_iff.mp hother).1
      omega
    have hbefore : (root :: rest)[k]? = some (root :: rest)[k] := List.getElem?_eq_getElem hlt
    rw [FitsAt, depthAt_of_getElem? hother, Nat.succ_sub_one, depthAt_of_getElem? hbefore]
    refine and_congr_right fun _ => ⟨fun h => ?_, fun h before hmem hnext => ?_⟩
    · refine h _ (List.getElem_mem hlt) ?_
      rw [heoi _ _ hother, heoi _ _ hbefore]
      rfl
    · obtain ⟨j, hj⟩ := List.mem_iff_getElem?.mp hmem
      rw [heoi _ _ hother, heoi _ _ hj] at hnext
      obtain rfl : k = j := by omega
      rw [hbefore] at hj
      exact Option.some.inj hj ▸ h
  have hpos : ∀ other : Execution, 0 < other.eoi ↔ 0 < other.eoi.toInt := fun other =>
    Int32.lt_iff_toInt_lt
  refine ⟨eois_perm_of_places (.refl _) heoi, ⟨root, List.mem_cons_self, ?_, hroot⟩,
    ⟨e, List.mem_of_getElem? h.getElem?, rfl, rfl, ?_, ?_⟩, ?_⟩
  · exact Int32.toInt_inj.mp (heoi 0 root rfl)
  · rw [hpos, heoi i e h.getElem?]
    have := h.le
    omega
  · rw [hfits i e h.le h.getElem?]
    exact h.not_fits
  · intro earlier hearlier hbehind hbefore
    obtain ⟨k, hk⟩ := List.mem_iff_getElem?.mp hearlier
    rw [hpos, heoi k earlier hk] at hbehind
    rw [Int32.lt_iff_toInt_lt, heoi k earlier hk, heoi i e h.getElem?] at hbefore
    exact (hfits k earlier (by omega) hk).mpr (h.before k (by omega) (by omega))

/-- **A fault says what is the matter.** -/
theorem explains_of_reconstruct (hid : ∀ e ∈ executions, e.traceId = id)
    (h : reconstruct id executions = .error fault) : Explains executions fault := by
  by_cases hne : executions = []
  · subst hne
    obtain rfl : TraceError.empty = fault := by simpa [reconstruct] using h
    rfl
  obtain ⟨root, rest, hentry⟩ := exists_root hne
  refine Explains.of_perm ?_ (perm_inEntryOrder executions)
  have hsorted := pairwise_inEntryOrder executions
  rw [hentry] at hsorted ⊢
  rcases checkOrder_cases 0 (root :: rest) with hok | ⟨front, e, behind, hsplit, hcounting, herror⟩
  · have hcounting := eoi_of_checkOrder hok
    rw [← List.range_eq_range'] at hcounting
    have hle := length_le_of_counting hcounting hsorted
    rw [reconstruct_of_counting hid hentry hcounting] at h
    split at h
    · next hroot =>
      rcases nest_root_cases hroot with ⟨callers, hnested, -⟩ | ⟨i, e, hnested, hmisfit⟩
      · rw [hnested] at h
        cases h
      · rw [hnested] at h
        obtain rfl := Except.error.inj h
        exact hmisfit.explains hroot hle hcounting
    · next hroot =>
      obtain rfl := Except.error.inj h
      have heoi : ∀ (i : Nat) (e : Execution), (root :: rest)[i]? = some e → e.eoi.toInt = i :=
        fun i e hi => eoi_of_counting hle hcounting hi
      exact ⟨eois_perm_of_places (.refl _) heoi, hroot, root, List.mem_cons_self,
        Int32.toInt_inj.mp (heoi 0 root rfl), rfl⟩
  · rw [hsplit] at hsorted ⊢
    rw [← List.range_eq_range'] at hcounting
    rw [Nat.zero_add] at herror
    rw [reconstruct_of_traceId hid hentry] at h
    rcases herror with ⟨hbelow, herror⟩ | ⟨habove, herror⟩
    · rw [herror] at h
      obtain rfl := Except.error.inj h
      exact explains_of_below hsorted hcounting hbelow
    · rw [herror] at h
      obtain rfl := Except.error.inj h
      exact explains_of_above hsorted hcounting habove

/-- What is put together counts from zero. -/
theorem isCounted_of_reconstruct {trace : Trace} (h : reconstruct id executions = .ok trace) :
    IsCounted executions := by
  have hbuilds := builds_of_reconstruct h
  have hcounting := eoi_of_checkOrder (hbuilds.executions_eq ▸ hbuilds.ordered)
  rw [← List.range_eq_range'] at hcounting
  have hle := length_le_of_counting hcounting (pairwise_inEntryOrder executions)
  exact eois_perm_of_places (perm_inEntryOrder executions) fun _ _ hi =>
    eoi_of_counting hle hcounting hi

/-- The check of the order sees nothing but the indices. -/
theorem checkOrder_congr (h : executions.map Execution.eoi = others.map Execution.eoi)
    (start : Nat) : checkOrder start executions = checkOrder start others := by
  induction executions generalizing others start with
  | nil =>
    obtain rfl : others = [] := List.map_eq_nil_iff.mp h.symm
    rfl
  | cons e executions ih =>
    obtain ⟨other, others, rfl, heoi, hmap⟩ := List.map_eq_cons_iff.mp h.symm
    rw [checkOrder, checkOrder, heoi, ih hmap.symm]

/-- **The order in which executions arrive makes no difference.** -/
theorem reconstruct_perm (hid : ∀ e ∈ executions, e.traceId = id)
    (hperm : others.Perm executions) : reconstruct id others = reconstruct id executions := by
  by_cases hne : executions = []
  · subst hne
    rw [hperm.eq_nil]
  have hid' : ∀ e ∈ others, e.traceId = id := fun e he => hid e (hperm.mem_iff.mp he)
  obtain ⟨root, rest, hentry⟩ := exists_root hne
  obtain ⟨root', rest', hentry'⟩ := exists_root (show others ≠ [] by
    rintro rfl
    exact hne hperm.nil_eq.symm)
  have heois : (inEntryOrder others).map Execution.eoi
      = (inEntryOrder executions).map Execution.eoi := by
    refine List.Perm.eq_of_pairwise (fun _ _ _ _ => Int32.le_antisymm) ?_ ?_
      (((perm_inEntryOrder others).trans (hperm.trans (perm_inEntryOrder executions).symm)).map _)
    · exact List.pairwise_map.mpr (pairwise_inEntryOrder others)
    · exact List.pairwise_map.mpr (pairwise_inEntryOrder executions)
  have hcheck := checkOrder_congr heois 0
  rw [reconstruct_of_traceId hid hentry, reconstruct_of_traceId hid' hentry']
  rw [hentry, hentry'] at hcheck
  cases hordered : checkOrder 0 (root :: rest) with
  | error fault =>
    rw [hcheck, hordered]
    rfl
  | ok =>
    -- each index is carried once, so that there is only one way to sort
    have hcounting := eoi_of_checkOrder hordered
    rw [← List.range_eq_range'] at hcounting
    have hle := length_le_of_counting hcounting (hentry ▸ pairwise_inEntryOrder executions)
    have hsame := inEntryOrder_of_perm (hperm.trans (hentry ▸ perm_inEntryOrder executions).symm)
      hcounting hle
    rw [hentry'] at hsame
    obtain ⟨rfl, rfl⟩ := List.cons.inj hsame
    rw [hordered]

/-- **Faults tell the truth.** A fault of executions of one trace says what is the matter with them,
and it is the same for every order of the executions. -/
theorem faults_are_explained (id : Int64) (executions : List Execution) (fault : TraceError)
    (hid : ∀ e ∈ executions, e.traceId = id) (h : reconstruct id executions = .error fault) :
    Explains executions fault
      ∧ ∀ others : List Execution, others.Perm executions → reconstruct id others = .error fault :=
  ⟨explains_of_reconstruct hid h, fun _ hperm => (reconstruct_perm hid hperm).trans h⟩

/-- The last one of three executions in exit order is deeper than the one before it can call. -/
theorem too_deep_is_explained :
    let executions : List Execution :=
      [⟨"C", "h()", "", 7, 20, 98, "s", 2, 3⟩, ⟨"B", "g()", "", 7, 10, 99, "s", 1, 1⟩,
        ⟨"A", "f()", "", 7, 0, 102, "s", 0, 0⟩]
    (∀ e ∈ executions, e.traceId = 7)
      ∧ reconstruct 7 executions = .error (.invalidNesting 2 3)
      ∧ Explains executions (.invalidNesting 2 3)
      ∧ ∀ others : List Execution, others.Perm executions →
        reconstruct 7 others = .error (.invalidNesting 2 3) := by
  intro executions
  have hid : ∀ e ∈ executions, e.traceId = 7 := by decide
  have hentry : inEntryOrder executions = executions.reverse :=
    inEntryOrder_of_perm (List.reverse_perm executions).symm (by decide) (by decide)
  have herror : reconstruct 7 executions = .error (.invalidNesting 2 3) := by
    rw [reconstruct_of_traceId hid hentry]
    rfl
  exact ⟨hid, herror, faults_are_explained 7 executions _ hid herror⟩

/-- Two executions with different indices, of which the first one is negative. -/
theorem negative_index_called_duplicate :
    let executions : List Execution :=
      [⟨"A", "f()", "", 7, 0, 10, "h", -2, 1⟩, ⟨"B", "g()", "", 7, 1, 9, "h", 1, 2⟩]
    (∀ e ∈ executions, e.traceId = 7)
      ∧ reconstruct 7 executions = .error (.duplicateEoi (-2))
      ∧ carriers (-2) executions = 1 := by
  intro executions
  have hid : ∀ e ∈ executions, e.traceId = 7 := by decide
  have hentry : inEntryOrder executions = executions := List.mergeSort_of_pairwise (by decide)
  refine ⟨hid, ?_, by decide⟩
  rw [reconstruct_of_traceId hid hentry]
  rfl

end CallTrace.Trace
