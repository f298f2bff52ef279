import CallTrace.Proofs.Trace.Forest
import Mathlib.Order.Bounds.Basic

/-!
# Finding the callers of executions

Executions in entry order find their callers if each of them but the root is deeper than the root
and at most one deeper than the one before it (`FitsAt`). This is what the stack of open executions
amounts to: it is the chain of callers of the last execution, one for each depth (`IsOpen`), so that
an execution that fits finds its caller there and any other one does not (`nest_cases`).
-/

namespace CallTrace.Trace

variable {id : Int64} {executions rest : List Execution} {trace : Trace} {e : Execution}
  {stack : List (Nat × Int32)} {index later place : Nat} {depth : Int}

/-! ## Depths -/

/-- The depth of the execution at an index. -/
def depthAt (executions : List Execution) (index : Nat) : Int :=
  executions[index]?.elim 0 (·.ess.toInt)

theorem depthAt_of_getElem? (h : executions[index]? = some e) :
    depthAt executions index = e.ess.toInt := by
  simp [depthAt, h]

/-- The execution is deeper than the root and at most one deeper than the one before it. -/
def FitsAt (executions : List Execution) (index : Nat) : Prop :=
  1 ≤ depthAt executions index ∧ depthAt executions index ≤ depthAt executions (index - 1) + 1

/-- The caller of the execution at an index: the one before it that is one shallower, since which
nothing was entered that is shallower than the execution itself. -/
structure IsCaller (executions : List Execution) (caller index : Nat) : Prop where
  earlier : caller < index
  shallower : depthAt executions caller = depthAt executions index - 1
  between : ∀ k, caller < k → k < index → depthAt executions index ≤ depthAt executions k

/-- Of the executions that are one shallower the caller is the last one. -/
theorem IsCaller.isGreatest {caller : Nat} (h : IsCaller executions caller index) :
    IsGreatest {k | k < index ∧ depthAt executions k = depthAt executions index - 1} caller := by
  refine ⟨⟨h.earlier, h.shallower⟩, ?_⟩
  rintro k ⟨hk, hdepth⟩
  by_contra hlt
  have := h.between k (Nat.not_le.mp hlt) hk
  omega

/-! ## Open executions -/

/-- The execution at a place has this depth, and only deeper ones were entered since. -/
structure StaysOpen (executions : List Execution) (place : Nat) (depth : Int) (index : Nat) :
    Prop where
  earlier : place < index
  depthAt_eq : depthAt executions place = depth
  deeper : ∀ k, place < k → k < index → depth < depthAt executions k

/-- The stack before the execution at an index: the innermost open execution has the given depth,
and below it stands what was open when that one was entered. -/
inductive IsOpen (executions : List Execution) : Nat → Int → List (Nat × Int32) → Prop where
  | root {index : Nat} {ess : Int32} (h : StaysOpen executions 0 0 index) (hess : ess.toInt = 0) :
      IsOpen executions index 0 [(0, ess)]
  | call {index place : Nat} {depth : Int} {ess : Int32} {stack : List (Nat × Int32)}
      (outer : IsOpen executions place depth stack)
      (h : StaysOpen executions place (depth + 1) index) (hess : ess.toInt = depth + 1) :
      IsOpen executions index (depth + 1) ((place, ess) :: stack)

theorem StaysOpen.mono (h : StaysOpen executions place depth index) (hle : index ≤ later)
    (hdeeper : ∀ k, index ≤ k → k < later → depth < depthAt executions k) :
    StaysOpen executions place depth later := by
  refine ⟨Nat.lt_of_lt_of_le h.earlier hle, h.depthAt_eq, fun k hk hlt => ?_⟩
  by_cases hbefore : k < index
  · exact h.deeper k hk hbefore
  · exact hdeeper k (Nat.not_lt.mp hbefore) hlt

namespace IsOpen

theorem depth_nonneg (h : IsOpen executions index depth stack) : 0 ≤ depth := by
  induction h with
  | root => exact Int.le_refl 0
  | call _ _ _ ih => omega

/-- The innermost open execution. -/
theorem exists_head (h : IsOpen executions index depth stack) :
    ∃ place ess base, stack = (place, ess) :: base ∧ ess.toInt = depth
      ∧ StaysOpen executions place depth index := by
  cases h with
  | root h hess => exact ⟨_, _, _, rfl, hess, h⟩
  | call _ h hess => exact ⟨_, _, _, rfl, hess, h⟩

theorem pos (h : IsOpen executions index depth stack) : 0 < index := by
  obtain ⟨place, -, -, -, -, hopen⟩ := h.exists_head
  exact Nat.lt_of_le_of_lt (Nat.zero_le place) hopen.earlier

/-- What is open stays so while only deeper executions are entered. -/
theorem mono (h : IsOpen executions index depth stack) (hle : index ≤ later)
    (hdeeper : ∀ k, index ≤ k → k < later → depth < depthAt executions k) :
    IsOpen executions later depth stack := by
  cases h with
  | root h hess => exact .root (h.mono hle hdeeper) hess
  | call outer h hess => exact .call outer (h.mono hle hdeeper) hess

/-- An execution that is one deeper than the innermost open one comes on top of it. -/
theorem push (h : IsOpen executions index depth stack) (ess : Int32)
    (hdepth : depthAt executions index = depth + 1) (hess : ess.toInt = depth + 1) :
    IsOpen executions (index + 1) (depth + 1) ((index, ess) :: stack) := by
  refine .call h ⟨Nat.lt_succ_self index, hdepth, fun k hk hlt => ?_⟩ hess
  omega

/-- **The open executions that enclose one that fits** end with one that is one shallower. -/
theorem enclosing (h : IsOpen executions index depth stack) {ess : Int32} (hpos : 0 < ess.toInt)
    (hle : ess.toInt ≤ depth + 1) :
    IsOpen executions index (ess.toInt - 1) (Trace.enclosing ess stack) := by
  induction h with
  | @root index opened h hess =>
    have hnot : ¬ ess ≤ opened := by
      rw [Int32.le_iff_toInt_le]
      omega
    rw [enclosing_cons_of_not_le hnot, show ess.toInt - 1 = 0 by omega]
    exact .root h hess
  | @call index place depth opened stack outer h hess ih =>
    by_cases hclosed : ess ≤ opened
    -- the execution closes the innermost open one, so that nothing as shallow was entered since
    · have hclosed' : ess.toInt ≤ depth + 1 := hess ▸ Int32.le_iff_toInt_le.mp hclosed
      rw [enclosing_cons_of_le hclosed]
      refine (ih hclosed').mono (Nat.le_of_lt h.earlier) fun k hk hlt => ?_
      rcases Nat.eq_or_lt_of_le hk with rfl | hk
      · have := h.depthAt_eq
        omega
      · have := h.deeper k hk hlt
        omega
    · have hopen : ess.toInt - 1 = depth + 1 := by
        rw [Int32.le_iff_toInt_le] at hclosed
        omega
      rw [enclosing_cons_of_not_le hclosed, hopen]
      exact .call outer h hess

/-- Nothing encloses an execution that is as shallow as the root. -/
theorem enclosing_of_nonpos (h : IsOpen executions index depth stack) {ess : Int32}
    (hess : ess.toInt ≤ 0) : Trace.enclosing ess stack = [] := by
  induction h with
  | root _ hroot =>
    rw [enclosing_cons_of_le (Int32.le_iff_toInt_le.mpr (by omega))]
    rfl
  | call outer _ hopened ih =>
    have := outer.depth_nonneg
    rw [enclosing_cons_of_le (Int32.le_iff_toInt_le.mpr (by omega)), ih]

/-- An execution that is too deep closes nothing. -/
theorem enclosing_of_lt (h : IsOpen executions index depth stack) (ess : Int32)
    (hess : depth < ess.toInt) : Trace.enclosing ess stack = stack := by
  obtain ⟨place, opened, base, rfl, hopened, -⟩ := h.exists_head
  refine enclosing_cons_of_not_le ?_ _ _
  rw [Int32.le_iff_toInt_le]
  omega

end IsOpen

/-! ## Finding the callers -/

theorem toInt_sub_one {ess : Int32} (h : 0 < ess.toInt) : (ess - 1).toInt = ess.toInt - 1 := by
  have hlt := Int32.toInt_lt ess
  rw [Int32.toInt_sub, show (1 : Int32).toInt = 1 from rfl]
  exact Int.bmod_eq_of_le (by omega) (by omega)

/-- An execution that fits is entered from its caller. -/
theorem nest_cons_of_fits (h : IsOpen executions index depth stack)
    (he : depthAt executions index = e.ess.toInt) (hpos : 0 < e.ess.toInt)
    (hle : e.ess.toInt ≤ depth + 1) (rest : List Execution) :
    ∃ caller stack', IsCaller executions caller index
      ∧ IsOpen executions (index + 1) e.ess.toInt stack'
      ∧ nest stack index (e :: rest) = (nest stack' (index + 1) rest).map (some caller :: ·) := by
  have henclosing := h.enclosing hpos hle
  obtain ⟨caller, opened, base, hstack, hopened, hopen⟩ := henclosing.exists_head
  refine ⟨caller, (index, e.ess) :: (caller, opened) :: base, ⟨hopen.earlier, ?_, ?_⟩, ?_, ?_⟩
  · rw [hopen.depthAt_eq, he]
  · intro k hk hlt
    have := hopen.deeper k hk hlt
    omega
  · have hpush := henclosing.push e.ess (by omega) (by omega)
    rwa [hstack, Int.sub_add_cancel] at hpush
  · refine nest_cons hstack (Int32.toInt_inj.mp ?_)
    rw [hopened, toInt_sub_one hpos]

/-- An execution that does not fit is refused. -/
theorem nest_cons_of_not_fits (h : IsOpen executions index depth stack)
    (hmisfit : e.ess.toInt ≤ 0 ∨ depth + 1 < e.ess.toInt) (rest : List Execution) :
    nest stack index (e :: rest) = .error (.invalidNesting e.eoi e.ess) := by
  have hindex : index ≠ 0 := Nat.ne_of_gt h.pos
  unfold nest
  rcases hmisfit with hshallow | hdeep
  · have hnil := h.enclosing_of_nonpos hshallow
    rw [Trace.enclosing] at hnil
    simp [hnil, hindex]
  · obtain ⟨place, opened, base, hstack, hopened, -⟩ := h.exists_head
    have hall := h.enclosing_of_lt e.ess (by omega)
    have hne : opened ≠ e.ess - 1 := by
      rintro rfl
      have hnonneg := h.depth_nonneg
      rw [toInt_sub_one (by omega)] at hopened
      omega
    subst hstack
    rw [Trace.enclosing] at hall
    simp only [hall, List.head?_cons, if_neg hne]

/-- The executions from an index on all fit, and these are their callers. -/
structure Nested (executions : List Execution) (index : Nat) (callers : List Nat) : Prop where
  fits : ∀ i, index ≤ i → i < executions.length → FitsAt executions i
  length : index + callers.length = executions.length
  caller : ∀ i caller, callers[i]? = some caller → IsCaller executions caller (index + i)

/-- The first execution from an index on that does not fit. -/
structure Misfit (executions : List Execution) (index i : Nat) (e : Execution) : Prop where
  le : index ≤ i
  getElem? : executions[i]? = some e
  not_fits : ¬ FitsAt executions i
  before : ∀ k, index ≤ k → k < i → FitsAt executions k

theorem Nested.cons {callers : List Nat} {caller : Nat} (h : Nested executions (index + 1) callers)
    (hfits : FitsAt executions index) (hcaller : IsCaller executions caller index) :
    Nested executions index (caller :: callers) where
  fits i hi hlt := by
    rcases Nat.eq_or_lt_of_le hi with rfl | hi
    · exact hfits
    · exact h.fits i hi hlt
  length := by
    rw [List.length_cons, ← h.length]
    omega
  caller := by
    rintro (_ | i) other hother
    · obtain rfl := Option.some.inj hother
      exact hcaller
    · rw [← Nat.add_assoc, Nat.add_right_comm]
      exact h.caller i other hother

theorem Misfit.cons {i : Nat} (h : Misfit executions (index + 1) i e)
    (hfits : FitsAt executions index) : Misfit executions index i e where
  le := Nat.le_of_succ_le h.le
  getElem? := h.getElem?
  not_fits := h.not_fits
  before k hk hlt := by
    rcases Nat.eq_or_lt_of_le hk with rfl | hk
    · exact hfits
    · exact h.before k hk hlt

/-- **Nesting goes on up to the first execution that does not fit.** If there is none, it has found
the caller of each. -/
theorem nest_cases (h : IsOpen executions index (depthAt executions (index - 1)) stack)
    (hrest : executions.drop index = rest) (hle : index ≤ executions.length) :
    (∃ callers : List Nat, nest stack index rest = .ok (callers.map some)
      ∧ Nested executions index callers)
    ∨ ∃ i e, nest stack index rest = .error (.invalidNesting e.eoi e.ess)
      ∧ Misfit executions index i e := by
  induction rest generalizing index stack with
  | nil =>
    have hlength : executions.length ≤ index := List.drop_eq_nil_iff.mp hrest
    refine .inl ⟨[], rfl, fun i hi hlt => ?_, ?_, by simp⟩
    · omega
    · rw [List.length_nil]
      omega
  | cons e rest ih =>
    have hat : executions[index]? = some e := by
      rw [← List.head?_drop, hrest, List.head?_cons]
    have he := depthAt_of_getElem? hat
    by_cases hfits : FitsAt executions index
    · obtain ⟨caller, stack', hcaller, hopen, hnest⟩ :=
        nest_cons_of_fits h he (he ▸ hfits.1) (he ▸ hfits.2) rest
      have hlt : index < executions.length := (List.getElem?_eq_some_iff.mp hat).1
      have hnext : executions.drop (index + 1) = rest := by
        rw [← List.drop_drop, hrest, List.drop_one, List.tail_cons]
      rw [← he] at hopen
      rw [hnest]
      rcases ih hopen hnext hlt with ⟨callers, hok, hnested⟩ | ⟨i, misfit, herror, hmisfit⟩
      · exact .inl ⟨caller :: callers, by rw [hok]; rfl, hnested.cons hfits hcaller⟩
      · exact .inr ⟨i, misfit, by rw [herror]; rfl, hmisfit.cons hfits⟩
    · have hnot : e.ess.toInt ≤ 0 ∨ depthAt executions (index - 1) + 1 < e.ess.toInt := by
        rw [FitsAt, he] at hfits
        omega
      exact .inr ⟨index, e, nest_cons_of_not_fits h hnot rest, Nat.le_refl index, hat, hfits,
        fun k hk hlt => absurd hk (Nat.not_le.mpr hlt)⟩

/-- **The executions behind a root** are nested, or the first one that does not fit is named. -/
theorem nest_root_cases {root : Execution} (hroot : root.ess = 0) :
    (∃ callers : List Nat, nest [] 0 (root :: rest) = .ok (none :: callers.map some)
      ∧ Nested (root :: rest) 1 callers)
    ∨ ∃ i e, nest [] 0 (root :: rest) = .error (.invalidNesting e.eoi e.ess)
      ∧ Misfit (root :: rest) 1 i e := by
  have hdepth : depthAt (root :: rest) 0 = 0 := by
    rw [depthAt_of_getElem? (List.getElem?_cons_zero), hroot]
    rfl
  have hopen : IsOpen (root :: rest) 1 0 [(0, root.ess)] :=
    .root ⟨Nat.zero_lt_one, hdepth, fun k hk hlt => by omega⟩ (by rw [hroot]; rfl)
  rw [← hdepth] at hopen
  rw [nest_cons_root rfl]
  rcases nest_cases hopen (List.drop_one ..) (Nat.le_add_left 1 rest.length) with
    ⟨callers, hok, hnested⟩ | ⟨i, e, herror, hmisfit⟩
  · exact .inl ⟨callers, by rw [List.tail_cons] at hok; rw [hok]; rfl, hnested⟩
  · exact .inr ⟨i, e, by rw [List.tail_cons] at herror; rw [herror]; rfl, hmisfit⟩

end CallTrace.Trace
