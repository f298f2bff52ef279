import CallTrace.Proofs.Pipeline.Commands
import CallTrace.Proofs.Pipeline.Order
import Mathlib.Algebra.Ring.Nat
import Mathlib.Data.List.Perm.Subperm

/-!
# The order of execution, counted

`schedule` looks through the waiting connections to see whether a stage has become free. Here the
order is made with counters: one for each stage, of the connections that lead to it from stages not
yet taken, and a list of the stages that each stage is connected to. A counter that would go below
zero, or that is missing, ends the making.

* `counters_countDown`: while the connections that leave a stage are counted off, each counter is
  the number of the connections that are still waiting (`Counts`), so that it is positive for each of
  them.
* `takeAll_eq_schedule`: the stages that come to zero are those that `schedule` lets join its queue.

No fuel is needed: each step takes a stage from the queue, and a stage only joins it when a counter
comes down.
-/

namespace CallTrace.Pipeline

variable {connections waiting leaving : List Connection} {queue done : List StageId} {count : Nat}

/-! ## Counters -/

/-- For each of the stages, by its index, how many connections lead to it, and where those lead that
leave it. -/
structure Degrees where
  counters : List Nat
  targets : List (List StageId)

/-- So many stages without connections. -/
def Degrees.unconnected (count : Nat) : Degrees where
  counters := List.replicate count 0
  targets := List.replicate count []

/-- Notes a connection between two of the stages. -/
def Degrees.note (count : Nat) (d : Degrees) (c : Connection) : Degrees :=
  if c.source.index < count ∧ c.target.index < count then
    { counters := d.counters.modify c.target.index (· + 1)
      targets := d.targets.modify c.source.index (· ++ [c.target]) }
  else d

/-- The counters and targets of so many stages with these connections. -/
def degrees (count : Nat) (connections : List Connection) : Degrees :=
  connections.foldl (Degrees.note count) (.unconnected count)

/-- Counts off one connection to each of these stages. Gives the stages whose counter has come to
zero, or nothing if a counter is missing or would go below zero. -/
def countDown (counters : List Nat) : List StageId → Option (List StageId × List Nat)
  | [] => some ([], counters)
  | stage :: stages =>
    match counters[stage.index]? with
    | some (left + 1) =>
      (countDown (counters.set stage.index left) stages).map fun (free, counters) =>
        (if left = 0 then stage :: free else free, counters)
    | _ => none

theorem sum_set_of_succ {counters : List Nat} {index left : Nat}
    (h : counters[index]? = some (left + 1)) :
    (counters.set index left).sum + 1 = counters.sum := by
  induction counters generalizing index with
  | nil => simp at h
  | cons counter counters ih =>
    cases index with
    | zero =>
      rw [List.getElem?_cons_zero, Option.some.injEq] at h
      rw [List.set_cons_zero, List.sum_cons, List.sum_cons, h]
      omega
    | succ index =>
      rw [List.getElem?_cons_succ] at h
      rw [List.set_cons_succ, List.sum_cons, List.sum_cons, ← ih h]
      omega

/-- Each stage that joins the queue has brought its counter down. -/
theorem sum_countDown {counters after : List Nat} {stages free : List StageId}
    (h : countDown counters stages = some (free, after)) :
    after.sum + free.length ≤ counters.sum := by
  induction stages generalizing counters free with
  | nil =>
    cases h
    simp
  | cons stage stages ih =>
    unfold countDown at h
    split at h
    · next left hleft =>
      rw [Option.map_eq_some_iff] at h
      obtain ⟨⟨others, last⟩, hothers, heq⟩ := h
      obtain ⟨rfl, rfl⟩ := Prod.mk.inj heq
      have hsum := sum_set_of_succ hleft
      have hrest := ih hothers
      split
      · rw [List.length_cons]
        omega
      · omega
    · cases h

/-- Takes stages from a queue. A stage joins the queue at its end when its counter comes to zero. -/
def takeAll (targets : List (List StageId)) (counters : List Nat) :
    List StageId → Option (List StageId)
  | [] => some []
  | stage :: queue =>
    match targets[stage.index]? with
    | none => none
    | some stages =>
      match _h : countDown counters stages with
      | none => none
      | some (free, after) => (takeAll targets after (queue ++ free)).map (stage :: ·)
termination_by queue => counters.sum + queue.length
decreasing_by
  have := sum_countDown _h
  simp only [List.length_append, List.length_cons]
  omega

theorem takeAll_cons {targets : List (List StageId)} {counters after : List Nat} {stage : StageId}
    {stages free : List StageId} (hstages : targets[stage.index]? = some stages)
    (hdown : countDown counters stages = some (free, after)) :
    takeAll targets counters (stage :: queue)
      = (takeAll targets after (queue ++ free)).map (stage :: ·) := by
  rw [takeAll, hstages]
  dsimp only
  split
  · next heq =>
    rw [hdown] at heq
    cases heq
  · next heq =>
    rw [hdown] at heq
    cases heq
    rfl

/-- The order of execution as it is made with counters. -/
def countedOrder (count : Nat) (connections : List Connection) : Option (List StageId) :=
  let d := degrees count connections
  takeAll d.targets d.counters ((stageIds count).filter fun id => d.counters[id.index]? = some 0)

/-! ## What the counters hold -/

/-- Each counter is the number of the waiting connections to its stage. -/
def Counts (count : Nat) (counters : List Nat) (waiting : List Connection) : Prop :=
  counters.length = count
    ∧ ∀ index < count, counters[index]? = some (waiting.countP (·.target.index = index))

theorem counters_note (d : Degrees) {c : Connection}
    (hc : c.source.index < count ∧ c.target.index < count)
    (h : Counts count d.counters connections) :
    Counts count (d.note count c).counters (connections ++ [c]) := by
  unfold Degrees.note
  rw [if_pos hc]
  refine ⟨by simpa using h.1, fun index hindex => ?_⟩
  rw [List.getElem?_modify, h.2 index hindex, List.countP_append, List.countP_singleton]
  by_cases heq : c.target.index = index
  · simp [heq]
  · simp [heq]

/-- Each stage has the targets of the connections that leave it. -/
def Leads (count : Nat) (targets : List (List StageId)) (connections : List Connection) : Prop :=
  ∀ id : StageId, id.index < count →
    targets[id.index]? = some ((connections.filter (·.source = id)).map (·.target))

theorem stageId_eq_iff {a b : StageId} : a = b ↔ a.index = b.index := by
  obtain ⟨a⟩ := a
  obtain ⟨b⟩ := b
  simp

theorem targets_note (d : Degrees) {c : Connection}
    (hc : c.source.index < count ∧ c.target.index < count) (h : Leads count d.targets connections) :
    Leads count (d.note count c).targets (connections ++ [c]) := by
  unfold Degrees.note
  rw [if_pos hc]
  intro id hid
  rw [List.getElem?_modify, h id hid, List.filter_append, List.map_append, List.filter_singleton]
  by_cases heq : c.source = id
  · simp [heq]
  · simp [heq, mt stageId_eq_iff.mpr heq]

/-- The degrees are those of the connections. -/
theorem degrees_spec (hbound : ∀ c ∈ connections, c.source.index < count ∧ c.target.index < count) :
    Counts count (degrees count connections).counters connections
      ∧ Leads count (degrees count connections).targets connections := by
  induction connections using List.reverseRecOn with
  | nil =>
    refine ⟨⟨by simp [degrees, Degrees.unconnected], fun index hindex => ?_⟩, fun id hid => ?_⟩
    · simp [degrees, Degrees.unconnected, hindex]
    · simp [degrees, Degrees.unconnected, hid]
  | append_singleton connections c ih =>
    obtain ⟨hcounts, hleads⟩ := ih fun c hc => hbound c (List.mem_append_left _ hc)
    have hc := hbound c (by simp)
    unfold degrees at hcounts hleads ⊢
    rw [List.foldl_append]
    exact ⟨counters_note _ hc hcounts, targets_note _ hc hleads⟩

/-! ## Counting down -/

/-- **No counter goes below zero**: as long as a connection to a stage is waiting, or leaving, the
counter of the stage is positive. The stages that come to zero are those that become free. -/
theorem counters_countDown {counters : List Nat}
    (h : Counts count counters (leaving ++ waiting)) (hlt : ∀ c ∈ leaving, c.target.index < count) :
    ∃ after, countDown counters (leaving.map (·.target)) = some (freed waiting leaving, after)
      ∧ Counts count after waiting := by
  induction leaving generalizing counters with
  | nil => exact ⟨counters, rfl, h⟩
  | cons c leaving ih =>
    have hc := hlt c List.mem_cons_self
    let left := (leaving ++ waiting).countP (·.target.index = c.target.index)
    have hcounter : counters[c.target.index]? = some (left + 1) := by
      rw [h.2 _ hc, List.cons_append, List.countP_cons]
      simp [left]
    have hcounts : Counts count (counters.set c.target.index left) (leaving ++ waiting) := by
      refine ⟨by rw [List.length_set, h.1], fun index hindex => ?_⟩
      by_cases heq : c.target.index = index
      · subst heq
        rw [List.getElem?_set_self (by rw [h.1]; exact hc)]
      · rw [List.getElem?_set_ne heq, h.2 index hindex, List.cons_append, List.countP_cons]
        simp [heq]
    obtain ⟨after, hafter, hlast⟩ := ih hcounts fun c hc => hlt c (List.mem_cons_of_mem _ hc)
    refine ⟨after, ?_, hlast⟩
    have hzero : left = 0 ↔ ¬ (leaving ++ waiting).any (·.target = c.target) := by
      simp only [left, List.countP_eq_zero, List.any_eq_true, decide_eq_true_eq, not_exists,
        not_and, stageId_eq_iff]
    rw [List.map_cons, countDown, hcounter]
    dsimp only
    rw [hafter, freed]
    by_cases hleft : left = 0
    · rw [if_neg (hzero.mp hleft), Option.map_some, if_pos hleft]
    · rw [if_pos (not_not.mp (mt hzero.mpr hleft)), Option.map_some, if_neg hleft]

/-- **Counting takes the stages that the schedule takes.** The induction follows the fuel of the
schedule, which is the number of the stages not taken. -/
theorem takeAll_eq_schedule {targets : List (List StageId)} {counters : List Nat} {fuel : Nat}
    (hbound : ∀ c ∈ connections, c.target.index < count) (hleads : Leads count targets connections)
    (h : Scheduling connections count done waiting queue) (hcounts : Counts count counters waiting)
    (hfuel : done.length + fuel = count) :
    takeAll targets counters queue = some (schedule waiting fuel queue) := by
  induction fuel generalizing done waiting queue counters with
  | zero =>
    cases queue with
    | nil =>
      rw [takeAll]
      rfl
    | cons id queue =>
      have hle := length_le_of_nodup h.nodup h.lt
      simp only [List.length_append, List.length_cons] at hle
      omega
  | succ fuel ih =>
    cases queue with
    | nil =>
      rw [takeAll]
      rfl
    | cons id queue =>
      have hid := h.notMem_done
      -- all connections that leave the stage are still waiting
      have hleaving : waiting.filter (·.source = id) = connections.filter (·.source = id) := by
        rw [h.waiting_eq, List.filter_filter]
        refine List.filter_congr fun c _ => ?_
        by_cases hsource : c.source = id
        · simp [hsource, hid]
        · simp [hsource]
      have hsplit : Counts count counters
          (waiting.filter (·.source = id) ++ waiting.filter (¬ ·.source = id)) := by
        refine ⟨hcounts.1, fun index hindex => ?_⟩
        rw [hcounts.2 index hindex, List.countP_append,
          List.countP_eq_countP_filter_add waiting _ (·.source = id)]
        simp only [decide_not]
      obtain ⟨after, hdown, hafter⟩ := counters_countDown hsplit fun c hc =>
        hbound c (h.mem_waiting.mp (List.mem_filter.mp hc).1).1
      have hstages := hleads id (h.lt id (by simp))
      rw [← hleaving] at hstages
      rw [takeAll_cons hstages hdown, schedule_cons,
        ih (h.take hbound) hafter (by rw [List.length_cons]; omega), Option.map_some]

/-- **The order that is made with counters is the order of execution**, and its making does not
fail. -/
theorem countedOrder_eq
    (hbound : ∀ c ∈ connections, c.source.index < count ∧ c.target.index < count) :
    countedOrder count connections = some (executionOrder count connections) := by
  obtain ⟨hcounts, hleads⟩ := degrees_spec hbound
  have hroots : ((stageIds count).filter fun id =>
      (degrees count connections).counters[id.index]? = some 0)
        = (stageIds count).filter fun id => !connections.any (·.target = id) := by
    refine List.filter_congr fun id hid => ?_
    rw [hcounts.2 id.index (mem_stageIds.mp hid), Bool.eq_iff_iff]
    simp [List.countP_eq_zero, stageId_eq_iff]
  unfold countedOrder
  dsimp only
  rw [hroots]
  exact takeAll_eq_schedule (fun c hc => (hbound c hc).2) hleads
    (scheduling_roots connections count) hcounts (Nat.zero_add count)

theorem counters_le (hbound : ∀ c ∈ connections, c.source.index < count ∧ c.target.index < count) :
    ∀ counter ∈ (degrees count connections).counters, counter ≤ connections.length := by
  intro counter hcounter
  obtain ⟨⟨hlength, hcounts⟩, -⟩ := degrees_spec hbound
  obtain ⟨index, hindex, rfl⟩ := List.mem_iff_getElem.mp hcounter
  have hcount := hcounts index (by omega)
  rw [List.getElem?_eq_getElem hindex, Option.some.injEq] at hcount
  rw [hcount]
  exact List.countP_le_length

/-! ## Every pipeline -/

namespace System

variable {W σ ρ : Type} [Stage W σ] [Reader W ρ]

/-- **The order of execution is topological.** After any commands to a new pipeline, counting takes
every stage once and puts the source of each connection before its target, and on the way no counter
goes below zero, nor is one ever greater than the number of connections. -/
theorem order_is_topological (world : W) (commands : List (Command σ ρ)) :
    let p := (executeAll commands (empty world)).2.pipeline
    p.order.Perm (stageIds p.size)
      ∧ (∀ c ∈ p.connections, p.order.idxOf c.source < p.order.idxOf c.target)
      ∧ countedOrder p.size p.connections = some p.order
      ∧ ∀ counter ∈ (degrees p.size p.connections).counters, counter ≤ p.connections.length := by
  intro p
  have hp : p.WellConnected := ((sound_empty world).executeAll commands).wellConnected
  have horder := hp.order_comesInOrder
  have hbound : ∀ c ∈ p.connections, c.source.index < p.size ∧ c.target.index < p.size :=
    fun c hc => hp.lt_size hc
  refine ⟨?_, fun c hc => ?_, countedOrder_eq hbound, counters_le hbound⟩
  · refine (List.perm_ext_iff_of_nodup horder.nodup (nodup_stageIds p.size)).mpr fun id => ?_
    rw [mem_stageIds]
    exact hp.mem_order
  · exact horder.idxOf_lt ⟨c, hc, rfl, rfl⟩ (hp.mem_order.mpr (hbound c hc).2) List.not_mem_nil

end System

end CallTrace.Pipeline
