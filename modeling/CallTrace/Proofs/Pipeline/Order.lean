import CallTrace.Proofs.Pipeline.Construction
import Mathlib.Data.Fintype.Card
import Mathlib.Data.Fintype.EquivFin
import Mathlib.Data.Fintype.Sets
import Mathlib.Order.WellFounded

/-!
# The order of execution

In a well-connected pipeline the order of execution lists every member once, and each of them
after all that feed it (`order_comesInOrder`, `mem_order`). While it is made, the stages taken and
those in the queue are exactly the ones that no waiting connection leads to (`Scheduling`); that the
queue does not run dry before all are taken is where cycles would matter.
-/

namespace CallTrace.Pipeline

open Relation

variable {connections waiting leaving : List Connection} {queue done rest : List StageId}
  {count : Nat} {id : StageId}

/-! ## Stages that come in order -/

/-- Stages come one after the other behind those that are done, the latest of these first. Each
comes once, and after all that feed it. -/
def ComesInOrder (connections : List Connection) : (done rest : List StageId) → Prop
  | _, [] => True
  | done, id :: rest =>
    id ∉ done ∧ (∀ a, Feeds connections a id → a ∈ done)
      ∧ ComesInOrder connections (id :: done) rest

namespace ComesInOrder

theorem notMem (h : ComesInOrder connections done rest) : ∀ id ∈ rest, id ∉ done := by
  induction rest generalizing done with
  | nil => simp
  | cons first rest ih =>
    obtain ⟨hfirst, -, hrest⟩ := h
    intro id hid hdone
    rcases List.mem_cons.mp hid with rfl | hid
    · exact hfirst hdone
    · exact ih hrest id hid (List.mem_cons_of_mem _ hdone)

/-- No stage comes twice. -/
theorem nodup (h : ComesInOrder connections done rest) : rest.Nodup := by
  induction rest generalizing done with
  | nil => exact List.nodup_nil
  | cons first rest ih =>
    obtain ⟨-, -, hrest⟩ := h
    exact List.nodup_cons.mpr ⟨fun hmem => hrest.notMem first hmem List.mem_cons_self, ih hrest⟩

/-- What feeds a stage comes earlier. -/
theorem idxOf_lt (h : ComesInOrder connections done rest) {a b : StageId}
    (hfeeds : Feeds connections a b) (hb : b ∈ rest) (ha : a ∉ done) :
    rest.idxOf a < rest.idxOf b := by
  induction rest generalizing done with
  | nil => cases hb
  | cons first rest ih =>
    obtain ⟨-, hbefore, hrest⟩ := h
    by_cases hfirst : b = first
    · subst hfirst
      exact absurd (hbefore a hfeeds) ha
    · have hmem := (List.mem_cons.mp hb).resolve_left hfirst
      rw [List.idxOf_cons_ne rest (Ne.symm hfirst)]
      by_cases hsource : a = first
      · rw [hsource, List.idxOf_cons_self]
        exact Nat.succ_pos _
      · rw [List.idxOf_cons_ne rest (Ne.symm hsource)]
        exact Nat.succ_lt_succ (ih hrest hmem (by simp [hsource, ha]))

end ComesInOrder

/-! ## Finitely many stages -/

/-- Without cycles, some of finitely many stages is fed by none of them. -/
theorem Acyclic.exists_source (h : Acyclic connections) {ids : List StageId} (hne : ids ≠ []) :
    ∃ a ∈ ids, ∀ b ∈ ids, ¬ Feeds connections b a := by
  let before : {a // a ∈ ids} → {a // a ∈ ids} → Prop :=
    fun a b => TransGen (Feeds connections) a.1 b.1
  have : IsTrans _ before := ⟨fun _ _ _ hab hbc => TransGen.trans hab hbc⟩
  have : Std.Irrefl before := ⟨fun a hcycle => h a.1 hcycle⟩
  obtain ⟨first, hfirst⟩ := List.exists_mem_of_ne_nil ids hne
  obtain ⟨⟨a, ha⟩, -, hmin⟩ := (Finite.wellFounded_of_trans_of_irrefl before).has_min Set.univ
    ⟨⟨first, hfirst⟩, trivial⟩
  exact ⟨a, ha, fun b hb hfeeds => hmin ⟨b, hb⟩ trivial (.single hfeeds)⟩

theorem mem_stageIds : id ∈ stageIds count ↔ id.index < count := by
  simp only [stageIds, List.mem_map, List.mem_range]
  constructor
  · rintro ⟨index, hindex, rfl⟩
    exact hindex
  · exact fun hlt => ⟨id.index, hlt, rfl⟩

theorem nodup_stageIds (count : Nat) : (stageIds count).Nodup :=
  List.nodup_range.map fun _ _ hab => congrArg StageId.index hab

/-! ## Stages that become free -/

theorem mem_freed : id ∈ freed waiting leaving
    ↔ (∃ c ∈ leaving, c.target = id) ∧ ∀ c ∈ waiting, c.target ≠ id := by
  induction leaving with
  | nil => simp [freed]
  | cons c leaving ih =>
    rw [freed]
    split
    · next hany =>
      rw [ih]
      simp only [List.any_eq_true, List.mem_append, decide_eq_true_eq] at hany
      obtain ⟨other, hother, htarget⟩ := hany
      constructor
      · rintro ⟨⟨d, hd, hid⟩, hnone⟩
        exact ⟨⟨d, List.mem_cons_of_mem _ hd, hid⟩, hnone⟩
      · rintro ⟨⟨d, hd, rfl⟩, hnone⟩
        refine ⟨?_, hnone⟩
        rcases List.mem_cons.mp hd with rfl | hd
        -- another connection leads there, too, and it can only be one that leaves later
        · rcases hother with hother | hother
          · exact ⟨other, hother, htarget⟩
          · exact absurd htarget (hnone other hother)
        · exact ⟨d, hd, rfl⟩
    · next hany =>
      simp only [List.any_eq_true, List.mem_append, decide_eq_true_eq, not_exists, not_and] at hany
      rw [List.mem_cons, ih]
      constructor
      · rintro (rfl | ⟨⟨d, hd, hid⟩, hnone⟩)
        · exact ⟨⟨c, List.mem_cons_self, rfl⟩, fun d hd => hany d (.inr hd)⟩
        · exact ⟨⟨d, List.mem_cons_of_mem _ hd, hid⟩, hnone⟩
      · rintro ⟨⟨d, hd, rfl⟩, hnone⟩
        rcases List.mem_cons.mp hd with rfl | hd
        · exact .inl rfl
        · exact .inr ⟨⟨d, hd, rfl⟩, hnone⟩

theorem nodup_freed (waiting leaving : List Connection) : (freed waiting leaving).Nodup := by
  induction leaving with
  | nil => exact List.nodup_nil
  | cons c leaving ih =>
    rw [freed]
    split
    · exact ih
    · next hany =>
      refine List.nodup_cons.mpr ⟨fun hmem => hany ?_, ih⟩
      obtain ⟨⟨d, hd, htarget⟩, -⟩ := mem_freed.mp hmem
      simp only [List.any_eq_true, List.mem_append, decide_eq_true_eq]
      exact ⟨d, .inl hd, htarget⟩

/-! ## The schedule -/

/-- Where the schedule of so many stages stands: the stages taken so far, the connections that leave
none of them, and the queue. -/
structure Scheduling (connections : List Connection) (count : Nat) (done : List StageId)
    (waiting : List Connection) (queue : List StageId) : Prop where
  waiting_eq : waiting = connections.filter (·.source ∉ done)
  nodup : (done ++ queue).Nodup
  lt : ∀ id ∈ done ++ queue, id.index < count
  free : ∀ id : StageId, id.index < count →
    (id ∈ done ++ queue ↔ ∀ c ∈ waiting, c.target ≠ id)

namespace Scheduling

theorem mem_waiting (h : Scheduling connections count done waiting queue) {c : Connection} :
    c ∈ waiting ↔ c ∈ connections ∧ c.source ∉ done := by
  simp [h.waiting_eq]

/-- What feeds a stage of the queue is done. -/
theorem mem_done_of_feeds (h : Scheduling connections count done waiting queue)
    (hid : id ∈ queue) {a : StageId} (hfeeds : Feeds connections a id) : a ∈ done := by
  obtain ⟨c, hc, rfl, rfl⟩ := hfeeds
  by_contra hwaits
  have hmem : c.target ∈ done ++ queue := List.mem_append_right _ hid
  exact (h.free _ (h.lt _ hmem)).mp hmem c (h.mem_waiting.mpr ⟨hc, hwaits⟩) rfl

theorem notMem_done (h : Scheduling connections count done waiting (id :: queue)) : id ∉ done :=
  fun hmem => (List.nodup_append.mp h.nodup).2.2 id hmem id List.mem_cons_self rfl

/-- A stage is taken, and those that it has kept waiting alone join the queue. -/
theorem take (h : Scheduling connections count done waiting (id :: queue))
    (hbound : ∀ c ∈ connections, c.target.index < count) :
    Scheduling connections count (id :: done) (waiting.filter (¬ ·.source = id))
      (queue ++ freed (waiting.filter (¬ ·.source = id)) (waiting.filter (·.source = id))) := by
  have hsplit : ∀ c ∈ waiting, c ∈ waiting.filter (·.source = id)
      ∨ c ∈ waiting.filter (¬ ·.source = id) := by
    intro c hc
    by_cases hsource : c.source = id
    · exact .inl (List.mem_filter.mpr ⟨hc, by simp [hsource]⟩)
    · exact .inr (List.mem_filter.mpr ⟨hc, by simp [hsource]⟩)
  have hfreed : ∀ other ∈ freed (waiting.filter (¬ ·.source = id))
      (waiting.filter (·.source = id)), other.index < count ∧ other ∉ done ++ id :: queue := by
    intro other hother
    obtain ⟨⟨c, hc, rfl⟩, -⟩ := mem_freed.mp hother
    have hwaiting := (List.mem_filter.mp hc).1
    have hlt := hbound c (h.mem_waiting.mp hwaiting).1
    exact ⟨hlt, fun hmem => (h.free _ hlt).mp hmem c hwaiting rfl⟩
  have hperm : (id :: done ++ queue).Perm (done ++ id :: queue) := List.perm_middle.symm
  refine ⟨?_, ?_, ?_, ?_⟩
  · rw [h.waiting_eq, List.filter_filter]
    refine List.filter_congr fun c _ => ?_
    simp only [List.mem_cons, not_or, Bool.decide_and, decide_not]
  · rw [← List.append_assoc]
    refine List.nodup_append.mpr ⟨hperm.nodup_iff.mpr h.nodup, nodup_freed _ _, ?_⟩
    rintro a ha b hb rfl
    exact (hfreed a hb).2 (hperm.mem_iff.mp ha)
  · intro other hother
    rw [← List.append_assoc] at hother
    rcases List.mem_append.mp hother with hold | hnew
    · exact h.lt other (hperm.mem_iff.mp hold)
    · exact (hfreed other hnew).1
  · intro other hlt
    rw [← List.append_assoc, List.mem_append, hperm.mem_iff, h.free other hlt, mem_freed]
    constructor
    · rintro (hnone | ⟨-, hnone⟩)
      · exact fun c hc => hnone c (List.mem_filter.mp hc).1
      · exact hnone
    · intro hnone
      by_cases hleaves : ∃ c ∈ waiting.filter (·.source = id), c.target = other
      · exact .inr ⟨hleaves, hnone⟩
      · refine .inl fun c hc htarget => ?_
        rcases hsplit c hc with hc | hc
        · exact hleaves ⟨c, hc, htarget⟩
        · exact hnone c hc htarget

/-- Without cycles the queue runs dry only when all stages are done. -/
theorem mem_done_of_nil (h : Scheduling connections count done waiting [])
    (hacyclic : Acyclic connections) (hbound : ∀ c ∈ connections, c.source.index < count)
    (hlt : id.index < count) : id ∈ done := by
  by_contra hid
  let missing := (stageIds count).filter (· ∉ done)
  have hmissing : ∀ {a}, a ∈ missing ↔ a.index < count ∧ a ∉ done := by
    simp [missing, mem_stageIds]
  obtain ⟨a, ha, hsource⟩ := hacyclic.exists_source
    (List.ne_nil_of_mem (hmissing.mpr ⟨hlt, hid⟩))
  obtain ⟨halt, hdone⟩ := hmissing.mp ha
  have hwaits : ¬ ∀ c ∈ waiting, c.target ≠ a := by
    rw [← h.free a halt, List.append_nil]
    exact hdone
  push Not at hwaits
  obtain ⟨c, hc, rfl⟩ := hwaits
  obtain ⟨hmem, hnot⟩ := h.mem_waiting.mp hc
  exact hsource c.source (hmissing.mpr ⟨hbound c hmem, hnot⟩) ⟨c, hmem, rfl, rfl⟩

theorem mem_done_or_nil (h : Scheduling connections count done waiting [])
    (hacyclic : Acyclic connections) (hbound : ∀ c ∈ connections, c.source.index < count)
    (id : StageId) : id ∈ done ∨ id ∈ [] ↔ id.index < count := by
  refine ⟨fun hid => h.lt id ?_, fun hlt => .inl (h.mem_done_of_nil hacyclic hbound hlt)⟩
  simpa using hid

end Scheduling

theorem schedule_cons (waiting : List Connection) (fuel : Nat) (id : StageId)
    (queue : List StageId) :
    schedule waiting (fuel + 1) (id :: queue)
      = id :: schedule (waiting.filter (¬ ·.source = id)) fuel
        (queue ++ freed (waiting.filter (¬ ·.source = id)) (waiting.filter (·.source = id))) := by
  simp only [schedule, List.partition_eq_filter_filter, Function.comp_def, decide_not]

/-- **The schedule goes on in order and takes every stage.** The induction follows the fuel, which
is the number of stages that are not yet taken. -/
theorem schedule_comesInOrder (hacyclic : Acyclic connections)
    (hbound : ∀ c ∈ connections, c.source.index < count ∧ c.target.index < count) {fuel : Nat}
    (h : Scheduling connections count done waiting queue) (hfuel : done.length + fuel = count) :
    ComesInOrder connections done (schedule waiting fuel queue)
      ∧ ∀ id : StageId, id ∈ done ∨ id ∈ schedule waiting fuel queue ↔ id.index < count := by
  induction fuel generalizing done waiting queue with
  | zero =>
    cases queue with
    | nil => exact ⟨trivial, h.mem_done_or_nil hacyclic fun c hc => (hbound c hc).1⟩
    | cons id queue =>
      have hle := length_le_of_nodup h.nodup h.lt
      simp only [List.length_append, List.length_cons] at hle
      omega
  | succ fuel ih =>
    cases queue with
    | nil => exact ⟨trivial, h.mem_done_or_nil hacyclic fun c hc => (hbound c hc).1⟩
    | cons id queue =>
      have htake := h.take fun c hc => (hbound c hc).2
      obtain ⟨hrest, hall⟩ := ih htake (by rw [List.length_cons]; omega)
      rw [schedule_cons]
      refine ⟨⟨h.notMem_done, fun a ha => h.mem_done_of_feeds List.mem_cons_self ha, hrest⟩, ?_⟩
      intro other
      rw [← hall other, List.mem_cons, List.mem_cons]
      tauto

/-- Before any stage is taken, those are free that no connection leads to. -/
theorem scheduling_roots (connections : List Connection) (count : Nat) :
    Scheduling connections count [] connections
      ((stageIds count).filter fun id => !connections.any (·.target = id)) where
  waiting_eq := by simp
  nodup := (nodup_stageIds count).filter _
  lt := fun id hid => mem_stageIds.mp (List.mem_filter.mp hid).1
  free := fun id hlt => by
    rw [List.nil_append, List.mem_filter, mem_stageIds]
    simp [hlt]

/-! ## Pipelines -/

variable {σ ρ : Type} {p : Pipeline σ ρ}

theorem WellConnected.lt_size (h : p.WellConnected) {c : Connection} (hc : c ∈ p.connections) :
    c.source.index < p.size ∧ c.target.index < p.size := by
  obtain ⟨out, inp, hjoins⟩ := h.joins c hc
  obtain ⟨source, hsource, _⟩ := Option.bind_eq_some_iff.mp hjoins.output
  obtain ⟨target, htarget, _⟩ := Option.bind_eq_some_iff.mp hjoins.input
  exact ⟨lt_size_of_slot?_eq_some hsource, lt_size_of_slot?_eq_some htarget⟩

/-- **The members of a pipeline come in order**, each once and after all that feed it. -/
theorem WellConnected.order_comesInOrder (h : p.WellConnected) :
    ComesInOrder p.connections [] p.order :=
  (schedule_comesInOrder h.acyclic (fun _ hc => h.lt_size hc)
    (scheduling_roots p.connections p.size) (Nat.zero_add _)).1

/-- **No member is left out** of the order, and nothing else is in it. -/
theorem WellConnected.mem_order (h : p.WellConnected) : id ∈ p.order ↔ id.index < p.size := by
  have hall := (schedule_comesInOrder h.acyclic (fun _ hc => h.lt_size hc)
    (scheduling_roots p.connections p.size) (Nat.zero_add _)).2 id
  exact (or_iff_right List.not_mem_nil).symm.trans hall

end CallTrace.Pipeline
