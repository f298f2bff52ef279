import CallTrace.Correlation
import CallTrace.Proofs.Index

/-!
# Contexts that count

Within a trace the context of a thread is a pair of natural numbers, the order index that comes next
and the depth (`Context.within`). As long as there are numbers left, an execution claims both, a
remote call claims the index for its callee, and the response brings back how far the index got.

When a counter has run out, an execution gets nothing of it. Whether or not it got what it asked
for, its exit undoes its entry (`restored_leave`).
-/

namespace CallTrace

namespace Context

/-- The context of a thread within a trace. -/
def within (traceId : Int64) (eoi ess : Nat) : Context :=
  { traceId, eoi := .ofNat eoi, ess := .ofNat ess }

variable {traceId : Int64} {eoi ess : Nat}

theorem isActive_of_nonneg {context : Context} (h : ¬ context.traceId < 0) :
    context.isActive = true := by
  simp only [isActive, bne_iff_ne]
  rintro he
  rw [he] at h
  exact h (by decide)

theorem isActive_within (hid : ¬ traceId < 0) : (within traceId eoi ess).isActive = true :=
  isActive_of_nonneg hid

theorem nextEoi_within (hid : ¬ traceId < 0) (h : eoi + 1 < 2 ^ 31) :
    (within traceId eoi ess).nextEoi = (.ofNat eoi, within traceId (eoi + 1) ess) := by
  have hneg : ¬ Int32.ofNat eoi < 0 := Index.not_neg (by omega)
  have hmax := Index.ne_maxValue h
  rw [nextEoi, isActive_within hid]
  simp only [within, Bool.not_true, Bool.false_or, Bool.or_eq_true, decide_eq_true_eq, hneg, hmax,
    or_self, if_false, Index.succ]

theorem pushEss_within (hid : ¬ traceId < 0) (h : ess + 1 < 2 ^ 31) :
    (within traceId eoi ess).pushEss = (.ofNat ess, within traceId eoi (ess + 1)) := by
  have hneg : ¬ Int32.ofNat ess < 0 := Index.not_neg (by omega)
  have hmax := Index.ne_maxValue h
  rw [pushEss, isActive_within hid]
  simp only [within, Bool.not_true, Bool.false_or, Bool.or_eq_true, decide_eq_true_eq, hneg, hmax,
    or_self, if_false, Index.succ]

theorem ofNat_ne_unset {n : Nat} (h : n < 2 ^ 31) : Int32.ofNat n ≠ CallTrace.unset := by
  intro he
  have hneg := Index.not_neg h
  rw [he] at hneg
  exact hneg (by decide)

theorem popEss_within (hid : ¬ traceId < 0) {prior : Nat} (h : prior < 2 ^ 31) :
    (within traceId eoi ess).popEss (.ofNat prior) = within traceId eoi prior := by
  rw [popEss, isActive_within hid]
  simp [ofNat_ne_unset h, within]

/-- A remote call takes the next index and the depth with it. -/
theorem outgoing_within (hid : ¬ traceId < 0) (h : eoi + 1 < 2 ^ 31) :
    (within traceId eoi ess).outgoing
      = (some { traceId, eoi := .ofNat eoi, ess := .ofNat ess },
        within traceId (eoi + 1) ess) := by
  rw [outgoing, if_pos (isActive_within hid), nextEoi_within hid h]
  rfl

/-- The callee of a remote call starts where the header says. -/
theorem ofHeader?_within (hid : ¬ traceId < 0) (heoi : eoi < 2 ^ 31) (hess : ess < 2 ^ 31) :
    ofHeader? { traceId, eoi := .ofNat eoi, ess := .ofNat ess }
      = some (within traceId eoi ess) := by
  have h1 := Index.not_neg heoi
  have h2 := Index.not_neg hess
  rw [ofHeader?, if_neg (by simp [hid, h1, h2])]
  rfl

theorem response_within (hid : ¬ traceId < 0) :
    (within traceId eoi ess).response
      = some { traceId, eoi := .ofNat eoi, ess := CallTrace.unset } := by
  rw [response, if_pos (isActive_within hid)]
  rfl

/-- The response of a remote call moves the index on. -/
theorem resume_within (hid : ¬ traceId < 0) {reached : Nat} (h : eoi ≤ reached)
    (hlt : reached < 2 ^ 31) :
    (within traceId eoi ess).resume { traceId, eoi := .ofNat reached, ess := CallTrace.unset }
      = within traceId reached ess := by
  rw [resume, isActive_within hid]
  simp only [within, Bool.true_and, beq_self_eq_true]
  rcases Nat.lt_or_ge eoi reached with hlt' | hge
  · exact if_pos (decide_eq_true ((Index.lt_iff (by omega) hlt).mpr hlt'))
  · obtain rfl : eoi = reached := Nat.le_antisymm h hge
    split <;> rfl

end Context

namespace TraceIds

open Context

variable {ids : TraceIds} {traceId : Int64} {eoi ess : Nat}

/-- An execution within a trace claims the index and the depth. -/
theorem enter_within (hid : ¬ traceId < 0) (heoi : eoi + 1 < 2 ^ 31) (hess : ess + 1 < 2 ^ 31) :
    ids.enter (within traceId eoi ess)
      = ({ traceId, eoi := .ofNat eoi, ess := .ofNat ess, isEntry := false }, ids,
        within traceId (eoi + 1) (ess + 1)) := by
  rw [enter, beginOrContinue, if_pos (isActive_within hid)]
  simp only [nextEoi_within hid heoi, pushEss_within hid hess]
  rfl

/-- An execution outside all traces opens one. -/
theorem enter_unset (hid : ¬ ids.next < 0) :
    ids.enter .unset
      = ({ traceId := ids.next, eoi := .ofNat 0, ess := .ofNat 0, isEntry := true },
        { next := ids.next + 1 }, within ids.next 1 1) := by
  have hbegin : ids.beginOrContinue .unset
      = ((ids.next, true), { next := ids.next + 1 }, within ids.next 0 0) := rfl
  rw [enter, hbegin]
  simp only [nextEoi_within hid (show 0 + 1 < 2 ^ 31 by decide),
    pushEss_within hid (show 0 + 1 < 2 ^ 31 by decide)]

end TraceIds

namespace Scope

open Context

variable {traceId : Int64} {eoi ess : Nat}

theorem isValid_within (hid : ¬ traceId < 0) (heoi : eoi < 2 ^ 31) (hess : ess < 2 ^ 31)
    (isEntry : Bool) :
    isValid { traceId, eoi := .ofNat eoi, ess := .ofNat ess, isEntry } = true := by
  have hactive : (traceId != noTrace) = true := @isActive_within traceId 0 0 hid
  simp [isValid, hactive, ofNat_ne_unset heoi, ofNat_ne_unset hess]

end Scope

/-! ## Counters that run out -/

namespace Index

/-- What is claimed of a counter: its value, or nothing when no other value comes after it. -/
def claimed (i : Int32) : Int32 := if i = Int32.maxValue then CallTrace.unset else i

/-- A counter after a claim. -/
def advanced (i : Int32) : Int32 := if i = Int32.maxValue then i else i + 1

theorem le_advanced (i : Int32) : i ≤ advanced i := by
  unfold advanced
  by_cases hmax : i = Int32.maxValue
  · rw [if_pos hmax]
    exact Int32.le_refl i
  · rw [if_neg hmax]
    exact Int32.le_of_lt (lt_add_one_of_ne hmax)

theorem claimed_eq_or (i : Int32) :
    claimed i = CallTrace.unset ∧ advanced i = i ∨ claimed i = i := by
  unfold claimed advanced
  by_cases hmax : i = Int32.maxValue
  · exact .inl ⟨if_pos hmax, if_pos hmax⟩
  · exact .inr (if_neg hmax)

end Index

namespace Context

open Index

/-- The context of no trace, or one of a trace, with numbers that count from zero. -/
def IsSound (context : Context) : Prop :=
  context = unset ∨ 0 ≤ context.traceId ∧ 0 ≤ context.eoi ∧ 0 ≤ context.ess

/-- There is a trace in which no order index or no depth is left to be claimed. -/
def IsExhausted (context : Context) : Prop :=
  context.isActive = true ∧ (context.eoi = Int32.maxValue ∨ context.ess = Int32.maxValue)

/-- The same trace, or still none, at the same depth, and no order index was given back. -/
structure Restored (before after : Context) : Prop where
  unset : before = .unset → after = .unset
  traceId : after.traceId = before.traceId
  ess : after.ess = before.ess
  eoi : before.eoi ≤ after.eoi

variable {before between after context : Context}

theorem Restored.refl (context : Context) : Restored context context :=
  ⟨id, rfl, rfl, Int32.le_refl _⟩

theorem Restored.trans (h : Restored before between) (h' : Restored between after) :
    Restored before after where
  unset hunset := h'.unset (h.unset hunset)
  traceId := h'.traceId.trans h.traceId
  ess := h'.ess.trans h.ess
  eoi := Int32.le_trans h.eoi h'.eoi

theorem Restored.isSound (h : Restored before after) (hsound : before.IsSound) : after.IsSound := by
  rcases hsound with hunset | ⟨htraceId, heoi, hess⟩
  · exact .inl (h.unset hunset)
  · refine .inr ⟨?_, Int32.le_trans heoi h.eoi, ?_⟩
    · rw [h.traceId]
      exact htraceId
    · rw [h.ess]
      exact hess

theorem isActive_of_traceId_nonneg (h : 0 ≤ context.traceId) : context.isActive = true :=
  isActive_of_nonneg (Int64.not_lt.mpr h)

theorem nextEoi_eq (hactive : context.isActive = true) (heoi : 0 ≤ context.eoi) :
    context.nextEoi = (claimed context.eoi, { context with eoi := advanced context.eoi }) := by
  have hneg : ¬ context.eoi < 0 := Int32.not_lt.mpr heoi
  unfold nextEoi claimed advanced
  by_cases hmax : context.eoi = Int32.maxValue
  · rw [if_pos hmax, if_pos hmax, if_pos (by simp [hmax])]
  · rw [if_neg hmax, if_neg hmax, if_neg (by simp [hactive, hneg, hmax])]

theorem pushEss_eq (hactive : context.isActive = true) (hess : 0 ≤ context.ess) :
    context.pushEss = (claimed context.ess, { context with ess := advanced context.ess }) := by
  have hneg : ¬ context.ess < 0 := Int32.not_lt.mpr hess
  unfold pushEss claimed advanced
  by_cases hmax : context.ess = Int32.maxValue
  · rw [if_pos hmax, if_pos hmax, if_pos (by simp [hmax])]
  · rw [if_neg hmax, if_neg hmax, if_neg (by simp [hactive, hneg, hmax])]

end Context

namespace TraceIds

open Context Index

variable {ids : TraceIds} {context left : Context}

/-- An execution in a trace claims what is left of both counters. -/
theorem enter_active (h : 0 ≤ context.traceId ∧ 0 ≤ context.eoi ∧ 0 ≤ context.ess) :
    ids.enter context
      = ({ traceId := context.traceId, eoi := claimed context.eoi, ess := claimed context.ess,
            isEntry := false }, ids,
          { context with eoi := advanced context.eoi, ess := advanced context.ess }) := by
  have hactive := isActive_of_traceId_nonneg h.1
  have hbegin : ids.beginOrContinue context = ((context.traceId, false), ids, context) :=
    if_pos hactive
  have hpush : ({ context with eoi := advanced context.eoi } : Context).pushEss
      = (claimed context.ess,
        { context with eoi := advanced context.eoi, ess := advanced context.ess }) :=
    pushEss_eq hactive h.2.2
  simp only [enter, hbegin, nextEoi_eq hactive h.2.1, hpush]

/-- Only an execution outside all traces needs a new id. -/
theorem next_enter (ids : TraceIds) (context : Context) :
    (ids.enter context).2.1.next
      = if context.isActive = true then ids.next else ids.next + 1 := by
  have hids : (ids.enter context).2.1 = (ids.beginOrContinue context).2.1 := rfl
  rw [hids, beginOrContinue]
  split <;> rfl

/-- An execution for which no order index is left gets none, and leaves none. -/
theorem enter_of_eoi_eq_maxValue (ids : TraceIds) {context : Context}
    (hactive : context.isActive = true) (hmax : context.eoi = Int32.maxValue) :
    ∃ scope entered, ids.enter context = (scope, ids, entered) ∧ scope.isValid = false
      ∧ entered.isActive = true ∧ entered.eoi = Int32.maxValue := by
  have hnone : context.nextEoi = (CallTrace.unset, context) := by
    simp [nextEoi, hmax]
  have hbegin : ids.beginOrContinue context = ((context.traceId, false), ids, context) :=
    if_pos hactive
  simp only [enter, hbegin, hnone]
  refine ⟨_, _, rfl, by simp [Scope.isValid], ?_, ?_⟩
  · unfold pushEss
    split <;> exact hactive
  · unfold pushEss
    split <;> exact hmax

variable (hsound : context.IsSound) (hids : context = .unset → ¬ ids.next < 0)
include hsound hids

theorem isSound_enter : (ids.enter context).2.2.IsSound := by
  rcases hsound with rfl | hsound
  · rw [enter_unset (hids rfl)]
    have hone : (0 : Int32) ≤ .ofNat 1 := by decide
    exact .inr ⟨Int64.not_lt.mp (hids rfl), hone, hone⟩
  · rw [enter_active hsound]
    exact .inr ⟨hsound.1, Int32.le_trans hsound.2.1 (le_advanced _),
      Int32.le_trans hsound.2.2 (le_advanced _)⟩

/-- **The exit of an execution undoes its entry**, if what came in between was restored. -/
theorem restored_leave (hleft : (ids.enter context).2.2.Restored left) :
    context.Restored ((ids.enter context).1.leave left) := by
  rcases hsound with rfl | hsound
  · rw [enter_unset (hids rfl)]
    exact Restored.refl .unset
  · rw [enter_active hsound] at hleft ⊢
    obtain ⟨-, htraceId, hess, heoi⟩ := hleft
    have hactive : left.isActive = true := by
      refine isActive_of_traceId_nonneg ?_
      rw [htraceId]
      exact hsound.1
    have hle := Int32.le_trans (le_advanced context.eoi) heoi
    have hnever : context ≠ .unset := by
      rintro rfl
      exact absurd hsound.1 (by decide)
    -- a depth that could not be claimed was not advanced either
    rcases claimed_eq_or context.ess with ⟨hclaimed, hadvanced⟩ | hclaimed
    · have hleave : Scope.leave ⟨context.traceId, claimed context.eoi, claimed context.ess, false⟩
          left = left := by
        simp [Scope.leave, popEss, hclaimed]
      rw [hleave]
      exact ⟨fun h => absurd h hnever, htraceId, hess.trans hadvanced, hle⟩
    · have hset : claimed context.ess ≠ CallTrace.unset := by
        rw [hclaimed]
        intro h
        rw [h] at hsound
        exact absurd hsound.2.2 (by decide)
      have hleave : Scope.leave ⟨context.traceId, claimed context.eoi, claimed context.ess, false⟩
          left = { left with ess := claimed context.ess } := by
        simp [Scope.leave, popEss, hactive, hset]
      rw [hleave]
      exact ⟨fun h => absurd h hnever, htraceId, hclaimed, hle⟩

/-- An execution that got everything it asked for got numbers that count from zero. -/
theorem nonneg_of_isValid (hvalid : (ids.enter context).1.isValid = true) :
    0 ≤ (ids.enter context).1.traceId ∧ 0 ≤ (ids.enter context).1.eoi
      ∧ 0 ≤ (ids.enter context).1.ess := by
  rcases hsound with rfl | hsound
  · rw [enter_unset (hids rfl)]
    have hzero : (0 : Int32) ≤ .ofNat 0 := by decide
    exact ⟨Int64.not_lt.mp (hids rfl), hzero, hzero⟩
  · rw [enter_active hsound] at hvalid ⊢
    simp only [Scope.isValid, Bool.and_eq_true, bne_iff_ne, ne_eq] at hvalid
    have heoi := (claimed_eq_or context.eoi).resolve_left fun h => hvalid.1.2 h.1
    have hess := (claimed_eq_or context.ess).resolve_left fun h => hvalid.2 h.1
    rw [heoi, hess]
    exact hsound

omit hids in
theorem not_isValid_of_isExhausted (h : context.IsExhausted) :
    (ids.enter context).1.isValid = false := by
  rcases hsound with rfl | hsound
  · exact absurd h.1 (by decide)
  · rw [enter_active hsound]
    rcases h.2 with hmax | hmax
    · simp [Scope.isValid, hmax, claimed]
    · simp [Scope.isValid, hmax, claimed]

end TraceIds

end CallTrace
