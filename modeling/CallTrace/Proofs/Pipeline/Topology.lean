import CallTrace.Pipeline
import Mathlib.Data.List.Chain
import Mathlib.Data.List.Nodup
import Mathlib.Data.List.Perm.Subperm
import Mathlib.Logic.Relation

/-!
# Reachability along connections

The search that guards new connections finds a stage exactly if connections lead there
(`reaches_iff`). A connection whose target does not lead back to its source keeps connections free
of cycles (`Acyclic.append`), and without cycles no path comes to a stage twice
(`Acyclic.nodup_of_isPath`).
-/

namespace CallTrace.Pipeline

open Relation

variable {connections : List Connection} {visited stack : List StageId} {a b goal : StageId}

/-- One stage is connected to another one. -/
def Feeds (connections : List Connection) (a b : StageId) : Prop :=
  ∃ c ∈ connections, c.source = a ∧ c.target = b

theorem feeds_append {more : List Connection} :
    Feeds (connections ++ more) a b ↔ Feeds connections a b ∨ Feeds more a b := by
  simp only [Feeds, List.mem_append, or_and_right, exists_or]

theorem feeds_singleton {c : Connection} : Feeds [c] a b ↔ c.source = a ∧ c.target = b := by
  simp [Feeds]

theorem mem_successors : b ∈ successors connections a ↔ Feeds connections a b := by
  simp [successors, Feeds, and_assoc]

/-! ## The search -/

/-- Connections lead from visited stages only to visited ones and to those on the stack. -/
def Closed (connections : List Connection) (visited stack : List StageId) : Prop :=
  ∀ a ∈ visited, ∀ b, Feeds connections a b → b ∈ visited ∨ b ∈ stack

theorem Closed.of_visited (h : Closed connections visited (a :: stack)) (ha : a ∈ visited) :
    Closed connections visited stack := by
  intro b hb c hfeeds
  rcases h b hb c hfeeds with hvisited | hstack
  · exact .inl hvisited
  · rcases List.mem_cons.mp hstack with rfl | hstack
    · exact .inl ha
    · exact .inr hstack

theorem Closed.visit (h : Closed connections visited (a :: stack)) :
    Closed connections (a :: visited) (successors connections a ++ stack) := by
  intro b hb c hfeeds
  rcases List.mem_cons.mp hb with rfl | hb
  · exact .inr (List.mem_append_left _ (mem_successors.mpr hfeeds))
  · rcases h b hb c hfeeds with hvisited | hstack
    · exact .inl (List.mem_cons_of_mem _ hvisited)
    · rcases List.mem_cons.mp hstack with rfl | hstack
      · exact .inl List.mem_cons_self
      · exact .inr (List.mem_append_right _ hstack)

/-- From visited stages the way to one that was not visited goes through the stack. -/
theorem Closed.exists_mem_stack (h : Closed connections visited stack) (ha : a ∈ visited)
    (hgoal : goal ∉ visited) (hreach : ReflTransGen (Feeds connections) a goal) :
    ∃ b ∈ stack, ReflTransGen (Feeds connections) b goal := by
  induction hreach using ReflTransGen.head_induction_on with
  | refl => exact absurd ha hgoal
  | head hstep hrest ih =>
    rcases h _ ha _ hstep with hvisited | hstack
    · exact ih hvisited
    · exact ⟨_, hstack, hrest⟩

theorem search_iff (hclosed : Closed connections visited stack) (hgoal : goal ∉ visited) :
    search connections goal visited stack
      ↔ ∃ a ∈ stack, ReflTransGen (Feeds connections) a goal := by
  fun_induction search connections goal visited stack with
  | case1 => simp
  | case2 visited stack => simpa using .inl .refl
  | case3 visited stage stack hother hvisited ih =>
    rw [ih (hclosed.of_visited hvisited) hgoal]
    constructor
    · rintro ⟨a, ha, hreach⟩
      exact ⟨a, List.mem_cons_of_mem _ ha, hreach⟩
    · rintro ⟨a, ha, hreach⟩
      rcases List.mem_cons.mp ha with rfl | ha
      -- the search has gone on from this stage before
      · exact (hclosed.of_visited hvisited).exists_mem_stack hvisited hgoal hreach
      · exact ⟨a, ha, hreach⟩
  | case4 visited stage stack hother hfresh ih =>
    rw [ih hclosed.visit (by simp [Ne.symm hother, hgoal])]
    constructor
    · rintro ⟨a, ha, hreach⟩
      rcases List.mem_append.mp ha with hnext | ha
      · exact ⟨stage, List.mem_cons_self, .head (mem_successors.mp hnext) hreach⟩
      · exact ⟨a, List.mem_cons_of_mem _ ha, hreach⟩
    · rintro ⟨a, ha, hreach⟩
      rcases List.mem_cons.mp ha with rfl | ha
      · obtain heq | ⟨next, hstep, hrest⟩ := hreach.cases_head
        · exact absurd heq hother
        · exact ⟨next, List.mem_append_left _ (mem_successors.mpr hstep), hrest⟩
      · exact ⟨a, List.mem_append_right _ ha, hreach⟩

/-- **The search finds a stage exactly if connections lead there.** -/
theorem reaches_iff : reaches connections a b ↔ ReflTransGen (Feeds connections) a b := by
  rw [reaches, search_iff (by simp [Closed]) (by simp)]
  simp

/-! ## Numbers of stages -/

/-- There are no more different stages than numbers for them. -/
theorem length_le_of_nodup {count : Nat} {ids : List StageId} (hnodup : ids.Nodup)
    (hlt : ∀ id ∈ ids, id.index < count) : ids.length ≤ count := by
  have hsub : ids.map StageId.index ⊆ List.range count := by
    intro index hindex
    obtain ⟨id, hid, rfl⟩ := List.mem_map.mp hindex
    exact List.mem_range.mpr (hlt id hid)
  have hindices : (ids.map StageId.index).Nodup :=
    List.Nodup.map (fun a b hab => congrArg StageId.mk hab) hnodup
  simpa using (List.subperm_of_subset hindices hsub).length_le

/-! ## Cycles -/

/-- No stage is reached from itself. -/
def Acyclic (connections : List Connection) : Prop := ∀ a, ¬ TransGen (Feeds connections) a a

theorem acyclic_nil : Acyclic [] := by
  intro a hcycle
  obtain ⟨b, ⟨c, hc, _⟩, _⟩ := TransGen.head'_iff.mp hcycle
  exact List.not_mem_nil hc

/-- A way along connections and a new one either does without the new one, or leads to it and goes
on behind it. -/
theorem transGen_append {c : Connection} (h : TransGen (Feeds (connections ++ [c])) a b) :
    TransGen (Feeds connections) a b
      ∨ ReflTransGen (Feeds connections) a c.source
        ∧ ReflTransGen (Feeds connections) c.target b := by
  induction h with
  | single hstep =>
    rcases feeds_append.mp hstep with hold | hnew
    · exact .inl (.single hold)
    · obtain ⟨rfl, rfl⟩ := feeds_singleton.mp hnew
      exact .inr ⟨.refl, .refl⟩
  | tail _ hstep ih =>
    rcases feeds_append.mp hstep with hold | hnew
    · rcases ih with hway | ⟨hto, hfrom⟩
      · exact .inl (hway.tail hold)
      · exact .inr ⟨hto, hfrom.tail hold⟩
    · obtain ⟨rfl, rfl⟩ := feeds_singleton.mp hnew
      rcases ih with hway | ⟨hto, _⟩
      · exact .inr ⟨hway.to_reflTransGen, .refl⟩
      · exact .inr ⟨hto, .refl⟩

/-- A connection whose target does not lead back to its source closes no cycle. -/
theorem Acyclic.append (h : Acyclic connections) {c : Connection}
    (hback : ¬ ReflTransGen (Feeds connections) c.target c.source) :
    Acyclic (connections ++ [c]) := by
  intro a hcycle
  rcases transGen_append hcycle with hold | ⟨hto, hfrom⟩
  · exact h a hold
  · exact hback (hfrom.trans hto)

/-! ## Paths -/

/-- Stages, the last one first, each of which is connected to the one before it in the list. -/
def IsPath (connections : List Connection) (stages : List StageId) : Prop :=
  stages.IsChain fun later earlier => Feeds connections earlier later

/-- Every stage of a path leads to those that stand before it. -/
theorem pairwise_of_isPath {stages : List StageId} (hpath : IsPath connections stages) :
    stages.Pairwise fun later earlier => TransGen (Feeds connections) earlier later := by
  have : IsTrans StageId fun later earlier => TransGen (Feeds connections) earlier later :=
    ⟨fun _ _ _ hfirst hsecond => hsecond.trans hfirst⟩
  exact List.isChain_iff_pairwise.mp (hpath.imp fun _ _ hstep => .single hstep)

/-- Without cycles no path comes to a stage twice. -/
theorem Acyclic.nodup_of_isPath (h : Acyclic connections) {stages : List StageId}
    (hpath : IsPath connections stages) : stages.Nodup := by
  refine (pairwise_of_isPath hpath).imp ?_
  rintro later earlier hway rfl
  exact h _ hway

end CallTrace.Pipeline
