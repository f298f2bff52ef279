import CallTrace.Proofs.Index
import CallTrace.Proofs.Trace.Calls
import Mathlib.Data.List.Forall2

/-!
# Call forests

The calls that an execution makes one after the other, each with the calls that it makes in turn.
Counted in the order of their entries, the calls of a forest have depths (`placed`) and callers
(`parents`). Executions that carry these indices and depths are put together to just these callers,
in whatever order they arrive (`Trace.reconstruct_of_perm`).
-/

namespace CallTrace

/-- Calls made one after the other, by labels. -/
inductive CallForest (α : Type) where
  | none
  | call (a : α) (inner later : CallForest α)
  deriving DecidableEq, Repr

namespace CallForest

variable {α : Type}

/-- How many calls there are, at all depths. -/
def size : CallForest α → Nat
  | none => 0
  | call _ inner later => 1 + inner.size + later.size

/-- The calls of one forest and then those of another one. -/
def append : CallForest α → CallForest α → CallForest α
  | none, more => more
  | call a inner later, more => call a inner (later.append more)

/-- The calls in the order of their entries, with their depths. -/
def placed (depth : Nat) : CallForest α → List (α × Nat)
  | none => []
  | call a inner later => (a, depth) :: (inner.placed (depth + 1) ++ later.placed depth)

/-- The callers of the calls in the order of their entries; the first call has the given index, and
the outermost ones have the given caller. -/
def parents (caller : Option Nat) (index : Nat) : CallForest α → List (Option Nat)
  | none => []
  | call _ inner later =>
    caller :: (inner.parents (some index) (index + 1)
      ++ later.parents caller (index + 1 + inner.size))

/-- The same calls with labels made from theirs. -/
def map {β : Type} (g : α → β) : CallForest α → CallForest β
  | none => none
  | call a inner later => call (g a) (inner.map g) (later.map g)

/-- The calls in the order of their entries. -/
def entries : CallForest α → List α
  | none => []
  | call a inner later => a :: (inner.entries ++ later.entries)

/-- The calls in the order in which they end. -/
def exits : CallForest α → List α
  | none => []
  | call a inner later => inner.exits ++ a :: later.exits

/-- Each call with the one that makes it; the outermost ones are made by the given caller. -/
def calledBy (caller : α) : CallForest α → List (α × α)
  | none => []
  | call a inner later => (caller, a) :: (inner.calledBy a ++ later.calledBy caller)

theorem size_call (a : α) (inner : CallForest α) : (call a inner none).size = 1 + inner.size := by
  simp only [size, Nat.add_zero]

@[simp] theorem length_placed (depth : Nat) (f : CallForest α) :
    (f.placed depth).length = f.size := by
  induction f generalizing depth with
  | none => rfl
  | call a inner later ihInner ihLater =>
    simp only [placed, size, List.length_cons, List.length_append, ihInner, ihLater]
    omega

/-- The calls stand in the same order with and without their depths. -/
theorem map_fst_placed (depth : Nat) (f : CallForest α) :
    (f.placed depth).map Prod.fst = f.entries := by
  induction f generalizing depth with
  | none => rfl
  | call a inner later ihInner ihLater => simp [placed, entries, ihInner, ihLater]

@[simp] theorem size_append (f g : CallForest α) : (f.append g).size = f.size + g.size := by
  induction f with
  | none => simp [append, size]
  | call a inner later _ ih =>
    simp only [append, size, ih]
    omega

@[simp] theorem size_map {β : Type} (g : α → β) (f : CallForest α) : (f.map g).size = f.size := by
  induction f with
  | none => rfl
  | call a inner later ihInner ihLater => simp [map, size, ihInner, ihLater]

theorem map_append {β : Type} (g : α → β) (f h : CallForest α) :
    (f.append h).map g = (f.map g).append (h.map g) := by
  induction f with
  | none => rfl
  | call a inner later _ ih => simp [append, map, ih]

theorem exits_append (f g : CallForest α) : (f.append g).exits = f.exits ++ g.exits := by
  induction f with
  | none => rfl
  | call a inner later _ ih => simp [append, exits, ih]

theorem length_entries (f : CallForest α) : f.entries.length = f.size := by
  induction f with
  | none => rfl
  | call a inner later ihInner ihLater =>
    simp only [entries, size, List.length_cons, List.length_append, ihInner, ihLater]
    omega

theorem length_parents (caller : Option Nat) (index : Nat) (f : CallForest α) :
    (f.parents caller index).length = f.size := by
  induction f generalizing caller index with
  | none => rfl
  | call a inner later ihInner ihLater =>
    simp only [parents, size, List.length_cons, List.length_append, ihInner, ihLater]
    omega

/-- Each call that is entered ends. -/
theorem exits_perm_entries (f : CallForest α) : f.exits.Perm f.entries := by
  induction f with
  | none => exact .nil
  | call a inner later ihInner ihLater =>
    exact List.perm_middle.trans ((ihInner.append ihLater).cons a)

end CallForest

namespace Trace

variable {α : Type}

/-! ## Putting calls in each other -/

/-- The open executions that enclose one with this stack size. -/
def enclosing (ess : Int32) (stack : List (Nat × Int32)) : List (Nat × Int32) :=
  stack.dropWhile fun o => ess ≤ o.2

theorem enclosing_cons_of_le {ess opened : Int32} (h : ess ≤ opened) (index : Nat)
    (stack : List (Nat × Int32)) :
    enclosing ess ((index, opened) :: stack) = enclosing ess stack := by
  simp [enclosing, h]

theorem enclosing_cons_of_not_le {ess opened : Int32} (h : ¬ ess ≤ opened) (index : Nat)
    (stack : List (Nat × Int32)) :
    enclosing ess ((index, opened) :: stack) = (index, opened) :: stack := by
  simp [enclosing, h]

/-- What encloses a shallower execution encloses it in the enclosing ones of a deeper one, too. -/
theorem enclosing_enclosing {inner outer : Int32} (h : outer ≤ inner)
    (stack : List (Nat × Int32)) :
    enclosing outer (enclosing inner stack) = enclosing outer stack := by
  induction stack with
  | nil => rfl
  | cons o stack ih =>
    obtain ⟨index, opened⟩ := o
    by_cases ho : inner ≤ opened
    · rw [enclosing_cons_of_le ho, ih, enclosing_cons_of_le (Int32.le_trans h ho)]
    · rw [enclosing_cons_of_not_le ho]

theorem nest_cons_root {e : Execution} {stack : List (Nat × Int32)} {rest : List Execution}
    (h : enclosing e.ess stack = []) :
    nest stack 0 (e :: rest) = (nest [(0, e.ess)] 1 rest).map (none :: ·) := by
  simp only [enclosing] at h
  simp [nest, h]

theorem nest_cons {e : Execution} {stack base : List (Nat × Int32)} {rest : List Execution}
    {index parent : Nat} {ess : Int32} (h : enclosing e.ess stack = (parent, ess) :: base)
    (hess : ess = e.ess - 1) :
    nest stack index (e :: rest)
      = (nest ((index, e.ess) :: (parent, ess) :: base) (index + 1) rest).map
          (some parent :: ·) := by
  simp only [enclosing] at h
  simp [nest, h, hess]

/-- **Nesting the executions of a forest finds the callers of the forest**, and leaves the open
executions that enclose anything shallower as they were. -/
theorem nest_forest (f : CallForest α) (index : Nat) (rest : List Execution) {depth caller : Nat}
    {stack base : List (Nat × Int32)} {executions : List Execution}
    (hess : executions.map Execution.ess = (f.placed (depth + 1)).map fun p => Int32.ofNat p.2)
    (hcaller : 0 < f.size → enclosing (.ofNat (depth + 1)) stack = (caller, .ofNat depth) :: base)
    (hle : depth + 1 + f.size ≤ 2 ^ 31) :
    ∃ after, (∀ d ≤ depth + 1, enclosing (.ofNat d) after = enclosing (.ofNat d) stack)
      ∧ nest stack index (executions ++ rest)
        = (nest after (index + f.size) rest).map (f.parents (some caller) index ++ ·) := by
  induction f generalizing depth index caller stack base executions rest with
  | none =>
    obtain rfl : executions = [] := by simpa [CallForest.placed] using hess
    refine ⟨stack, fun _ _ => rfl, ?_⟩
    simp only [CallForest.parents, CallForest.size, List.nil_append, Nat.add_zero]
    cases nest stack index rest <;> rfl
  | call a inner later ihInner ihLater =>
    rw [CallForest.size] at hle hcaller
    have hcaller := hcaller (by omega)
    -- the execution of the call itself, and those of the calls in it and after it
    rw [CallForest.placed, List.map_cons, List.map_append, List.map_eq_cons_iff] at hess
    obtain ⟨e, both, rfl, he, hboth⟩ := hess
    obtain ⟨inside, behind, rfl, hinside, hbehind⟩ := List.map_eq_append_iff.mp hboth
    dsimp only at he
    have hdepth : ∀ d ≤ depth + 1, Int32.ofNat d ≤ Int32.ofNat (depth + 1) := fun d hd =>
      (Index.le_iff (by omega) (by omega)).mpr hd
    have hopen : ∀ d ≤ depth + 1, enclosing (.ofNat d)
        ((index, Int32.ofNat (depth + 1)) :: (caller, .ofNat depth) :: base)
          = enclosing (.ofNat d) stack := by
      intro d hd
      rw [enclosing_cons_of_le (hdepth d hd), ← hcaller, enclosing_enclosing (hdepth d hd)]
    have hdeeper : 0 < inner.size → enclosing (.ofNat (depth + 1 + 1))
        ((index, Int32.ofNat (depth + 1)) :: (caller, .ofNat depth) :: base)
          = (index, .ofNat (depth + 1)) :: (caller, .ofNat depth) :: base := by
      intro hinner
      refine enclosing_cons_of_not_le ?_ _ _
      rw [Index.le_iff (by omega) (by omega)]
      omega
    obtain ⟨between, hbetween, hnestInner⟩ :=
      ihInner (index + 1) (behind ++ rest) hinside hdeeper (by omega)
    have hagain : enclosing (.ofNat (depth + 1)) between = (caller, .ofNat depth) :: base := by
      rw [hbetween _ (by omega), hopen _ (Nat.le_refl _), hcaller]
    obtain ⟨after, hafter, hnestLater⟩ :=
      ihLater (index + 1 + inner.size) rest hbehind (fun _ => hagain) (by omega)
    refine ⟨after, ?_, ?_⟩
    · intro d hd
      rw [hafter d hd, hbetween d (by omega), hopen d hd]
    · have hhead : Int32.ofNat depth = e.ess - 1 := by rw [he, Index.pred_succ]
      have hindex : index + 1 + inner.size + later.size
          = index + (CallForest.call a inner later).size := by
        rw [CallForest.size]
        omega
      rw [List.cons_append, nest_cons (by rw [he]; exact hcaller) hhead, he, List.append_assoc,
        hnestInner, hnestLater, hindex]
      cases nest after (index + (CallForest.call a inner later).size) rest with
      | error fault => rfl
      | ok parents => simp [Except.map, CallForest.parents]

/-! ## Putting a trace together -/

/-- Indices that count up from a start are in order. -/
theorem checkOrder_of_counting {executions : List Execution} {start : Nat}
    (h : executions.map Execution.eoi = (List.range' start executions.length).map Int32.ofNat) :
    checkOrder start executions = .ok () := by
  induction executions generalizing start with
  | nil => rfl
  | cons e executions ih =>
    rw [List.length_cons, List.range'_succ, List.map_cons, List.map_cons, List.cons.injEq] at h
    have hirrefl : ¬ Int32.ofNat start < Int32.ofNat start := Int32.lt_irrefl
    simp only [checkOrder, h.1, if_neg hirrefl]
    exact ih h.2

theorem perm_inEntryOrder (executions : List Execution) :
    (inEntryOrder executions).Perm executions := List.mergeSort_perm ..

theorem pairwise_inEntryOrder (executions : List Execution) :
    (inEntryOrder executions).Pairwise fun a b => a.eoi ≤ b.eoi := by
  suffices h : (inEntryOrder executions).Pairwise fun a b => decide (a.eoi ≤ b.eoi) = true by
    simpa only [decide_eq_true_eq] using h
  refine List.pairwise_mergeSort ?_ ?_ executions
  · intro a b c hab hbc
    simp only [decide_eq_true_eq] at hab hbc ⊢
    exact Int32.le_trans hab hbc
  · intro a b
    simp only [Bool.or_eq_true, decide_eq_true_eq]
    exact Int32.le_total _ _

/-- Executions whose indices count up are what sorting makes of any order of them. -/
theorem inEntryOrder_of_perm {executions all : List Execution} (hperm : all.Perm executions)
    (h : executions.map Execution.eoi = (List.range executions.length).map Int32.ofNat)
    (hle : executions.length ≤ 2 ^ 31) : inEntryOrder all = executions := by
  have heoi : ∀ i (hi : i < executions.length), executions[i].eoi = .ofNat i := by
    intro i hi
    have := congrArg (fun l : List Int32 => l[i]?) h
    simpa [List.getElem?_eq_getElem hi, List.getElem?_range hi] using this
  have hsorted : executions.Pairwise fun a b => a.eoi ≤ b.eoi := by
    rw [List.pairwise_iff_getElem]
    intro i j hi hj hij
    rw [heoi i hi, heoi j hj, Index.le_iff (by omega) (by omega)]
    omega
  -- two sorted lists of the same executions agree, since no index occurs twice
  have hall : (inEntryOrder all).Perm executions := (perm_inEntryOrder all).trans hperm
  refine List.Perm.eq_of_pairwise ?_ (pairwise_inEntryOrder all) hsorted hall
  intro a b ha hb hab hba
  obtain ⟨i, hi, rfl⟩ := List.mem_iff_getElem.mp (hall.mem_iff.mp ha)
  obtain ⟨j, hj, rfl⟩ := List.mem_iff_getElem.mp hb
  rw [heoi i hi, heoi j hj] at hab
  rw [heoi i hi, heoi j hj] at hba
  rw [Index.le_iff (by omega) (by omega)] at hab hba
  simp only [Nat.le_antisymm hab hba]

/-- The executions carry the order indices and depths of the calls of a tree. -/
structure Numbers (f : CallForest α) (id : Int64) (executions : List Execution) : Prop where
  traceId : ∀ e ∈ executions, e.traceId = id
  eoi : executions.map Execution.eoi = (List.range executions.length).map Int32.ofNat
  ess : executions.map Execution.ess = (f.placed 0).map fun p => Int32.ofNat p.2

/-- **The executions of a call tree are put together to this tree**, in whatever order they
arrive, as long as there are indices for them. -/
theorem reconstruct_of_perm_of_le {a : α} {inner : CallForest α} {id : Int64}
    {executions all : List Execution} (h : Numbers (.call a inner .none) id executions)
    (hperm : all.Perm executions) (hle : executions.length ≤ 2 ^ 31) :
    reconstruct id all
      = .ok { id, executions, parents := (CallForest.call a inner .none).parents none 0 } := by
  have hess := h.ess
  have hlength : executions.length = (CallForest.call a inner .none).size := by
    have := congrArg List.length hess
    simpa using this
  rw [CallForest.size, CallForest.size] at hlength
  rw [CallForest.placed, List.map_cons, List.map_eq_cons_iff] at hess
  obtain ⟨root, inside, rfl, hroot, hinside⟩ := hess
  have hforeign : all.find? (fun e => decide (e.traceId ≠ id)) = none := by
    rw [List.find?_eq_none]
    intro e he
    simpa using h.traceId e (hperm.mem_iff.mp he)
  have hnonempty : all.isEmpty = false := by
    rw [← Bool.not_eq_true, List.isEmpty_iff]
    rintro rfl
    simpa using hperm.length_eq
  have hroot : root.ess = 0 := hroot
  have hopen : enclosing (.ofNat (0 + 1)) [(0, root.ess)] = (0, .ofNat 0) :: [] := by
    rw [hroot]
    exact enclosing_cons_of_not_le (by decide) _ _
  rw [CallForest.placed, List.append_nil] at hinside
  obtain ⟨after, -, hnest⟩ := nest_forest inner 1 [] hinside (fun _ => hopen) (by omega)
  rw [List.append_nil] at hnest
  have hparents : nest [] 0 (root :: inside)
      = .ok ((CallForest.call a inner .none).parents none 0) := by
    rw [nest_cons_root rfl, hnest]
    simp [nest, Except.map, CallForest.parents]
  rw [reconstruct, hnonempty, hforeign]
  simp only [inEntryOrder_of_perm hperm h.eoi hle, List.head?_cons, hroot]
  rw [checkOrder_of_counting (by rw [h.eoi, List.range_eq_range'])]
  simp only [hparents]
  rfl

theorem reconstruct_of_perm {a : α} {inner : CallForest α} {id : Int64}
    {executions all : List Execution} (h : Numbers (.call a inner .none) id executions)
    (hperm : all.Perm executions) (hlt : executions.length < 2 ^ 31) :
    reconstruct id all
      = .ok { id, executions, parents := (CallForest.call a inner .none).parents none 0 } :=
  reconstruct_of_perm_of_le h hperm (Nat.le_of_lt hlt)

/-! ## The calls of a tree -/

/-- Executions in the order of their entries, among others, call each other as in their forest. -/
theorem filterMap_zip_parents (f : CallForest Execution) {id : Int64} {caller : Execution}
    {place : Nat} {all before after : List Execution} (hcaller : all[place]? = some caller)
    (hall : all = before ++ f.entries ++ after) :
    ((f.entries.zip (f.parents (some place) before.length)).filterMap fun (callee, parent) => do
        return callOf id (← all[← parent]?, callee))
      = (f.calledBy caller).map (callOf id) := by
  induction f generalizing caller place before after with
  | none => rfl
  | call callee inner later ihInner ihLater =>
    have hcallee : all[before.length]? = some callee := by simp [hall, CallForest.entries]
    have hinner := @ihInner callee before.length (before ++ [callee]) (later.entries ++ after)
      hcallee (by simp [hall, CallForest.entries])
    have hlater := @ihLater caller place (before ++ callee :: inner.entries) after hcaller
      (by simp [hall, CallForest.entries])
    rw [List.length_append, List.length_singleton] at hinner
    rw [List.length_append, List.length_cons, CallForest.length_entries, Nat.add_comm inner.size,
      ← Nat.add_assoc] at hlater
    rw [CallForest.entries, CallForest.parents, CallForest.calledBy, List.zip_cons_cons,
      List.zip_append (by rw [CallForest.length_entries, CallForest.length_parents]),
      List.map_cons, List.map_append, ← hinner, ← hlater, ← List.filterMap_append]
    exact List.filterMap_cons_some (by simp [hcaller])

/-- **A call tree has the calls of its root and of all calls below it.** -/
theorem calls_of_tree (id : Int64) (root : Execution) (inner : CallForest Execution) :
    calls {
        id
        executions := (CallForest.call root inner .none).entries
        parents := (CallForest.call root inner .none).parents none 0 }
      = (inner.calledBy root).map (callOf id) := by
  have hinner := @filterMap_zip_parents inner id root 0 (root :: inner.entries) [root] [] rfl
    (by simp)
  simp only [CallForest.entries, CallForest.parents, List.append_nil]
  exact hinner

end Trace

end CallTrace
