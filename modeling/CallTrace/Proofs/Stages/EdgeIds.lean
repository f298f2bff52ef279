import CallTrace.Proofs.Stages.Architecture

/-!
# Which edges of an architecture share their ids

The edges of an architecture are named by their ends, in the graph of the components and in the
graph of each component alike, and no two of them join the same ends (`namesByEnds_outer`,
`namesByEnds_inner`). So their ids are unique as long as no call continues another one across the
arrow; signatures with arrows in them may make one do so (`edge_id_shared`).
-/

namespace CallTrace

open Model

/-! ## Entries stand at their endpoints -/

namespace Model.ExecutionModel

/-- Each entry stands at its own endpoints. -/
def StandsAtEnds (model : ExecutionModel) : Prop :=
  ∀ key entry, model.entryAt? key = some entry → entry.endpoints = key

theorem standsAtEnds_empty : StandsAtEnds {} := by
  intro key entry hentry
  cases key with
  | component | operation => cases hentry
  | invocation caller callee => simp [entryAt?, invocation?] at hentry
  | operationDataflow source target => simp [entryAt?, operationDataflow?] at hentry
  | storageDataflow source storage => simp [entryAt?, storageDataflow?] at hentry

theorem StandsAtEnds.apply {model : ExecutionModel} (h : model.StandsAtEnds) (upsert : Upsert) :
    (upsert.apply model).2.StandsAtEnds := by
  intro key entry hentry
  rw [entryAt?_apply] at hentry
  split at hentry
  · obtain rfl := Option.some.inj hentry
    cases hknown : model.entryAt? key with
    | none => rfl
    | some known => exact h key known hknown
  · exact h key entry hentry

/-- No two invocations have the same ends. -/
theorem StandsAtEnds.nodup_ends {model : ExecutionModel} (h : model.StandsAtEnds) :
    (model.allInvocations.map fun invocation => (invocation.caller, invocation.callee)).Nodup := by
  have hendpoints := nodup_map_toList model.invocations .ofInvocation
    (fun edge => .invocation edge.source edge.target)
    (by rintro ⟨_, _⟩ ⟨_, _⟩ heq; simpa using heq)
    (fun edge entry hentry => h (.invocation edge.source edge.target) _
      (Option.map_eq_some_iff.mpr ⟨entry, hentry, rfl⟩))
  rw [allInvocations, List.map_map]
  refine List.Nodup.of_map (fun ends => Entity.invocation ends.1 ends.2) ?_
  rw [List.map_map]
  exact hendpoints

end Model.ExecutionModel

/-! ## Edges between components and within them -/

namespace Model

variable {graph child : Graph} {component : String} {invocations : List Invocation}

/-- The edges between components are named by their ends. -/
theorem namesByEnds_outer {pairs : List ComponentPair} (hpairs : pairs.Nodup)
    (h : graph.edges = pairs.map (·.toEdge invocations)) : graph.NamesByEnds where
  id edge hedge := by
    rw [h] at hedge
    obtain ⟨pair, -, rfl⟩ := List.mem_map.mp hedge
    rfl
  nodup := by
    rw [h, List.map_map]
    refine List.Nodup.map ?_ hpairs
    rintro ⟨_, _⟩ ⟨_, _⟩ hends
    simpa [ComponentPair.toEdge] using hends

/-- The ids of the edges between components are unique exactly if no call between components
continues another one. -/
theorem nodup_outerIds_iff {pairs : List ComponentPair} (hpairs : pairs.Nodup)
    (hmem : ∀ pair, pair ∈ pairs ↔ ∃ invocation ∈ invocations, invocation.components = pair)
    (h : graph.edges = pairs.map (·.toEdge invocations)) :
    graph.edgeIds.Nodup ↔ ¬ ∃ first ∈ invocations, ∃ second ∈ invocations,
      Graph.Continues first.caller.component first.callee.component
        second.caller.component second.callee.component := by
  rw [(namesByEnds_outer hpairs h).nodup_edgeIds_iff, h]
  refine not_congr ⟨?_, ?_⟩
  · rintro ⟨_, hdrawn, _, hdrawn', hcontinues⟩
    obtain ⟨_, hpair, rfl⟩ := List.mem_map.mp hdrawn
    obtain ⟨_, hpair', rfl⟩ := List.mem_map.mp hdrawn'
    obtain ⟨first, hfirst, rfl⟩ := (hmem _).mp hpair
    obtain ⟨second, hsecond, rfl⟩ := (hmem _).mp hpair'
    exact ⟨first, hfirst, second, hsecond, hcontinues⟩
  · rintro ⟨first, hfirst, second, hsecond, hcontinues⟩
    have hpair : first.components ∈ pairs := (hmem _).mpr ⟨first, hfirst, rfl⟩
    have hpair' : second.components ∈ pairs := (hmem _).mpr ⟨second, hsecond, rfl⟩
    exact ⟨_, List.mem_map_of_mem hpair, _, List.mem_map_of_mem hpair', hcontinues⟩

theorem isWithin_iff {invocation : Invocation} : invocation.isWithin component
    ↔ invocation.caller.component = component ∧ invocation.callee.component = component := by
  simp [Invocation.isWithin]

/-- Operations of one component that are shown by the same text are the same. -/
theorem eq_of_shown_eq {ref other : OperationRef} (hcomponent : ref.component = component)
    (hother : other.component = component) (h : ref.shown = other.shown) : ref = other := by
  obtain ⟨_, _⟩ := ref
  obtain ⟨_, _⟩ := other
  obtain rfl := hcomponent
  obtain rfl := hother
  rw [shown_injective h]

/-- The edges within a component are named by their ends. -/
theorem namesByEnds_inner
    (hends : (invocations.map fun invocation => (invocation.caller, invocation.callee)).Nodup)
    (h : child.edges = (invocations.filter (·.isWithin component)).map Invocation.toEdge) :
    child.NamesByEnds where
  id edge hedge := by
    rw [h] at hedge
    obtain ⟨invocation, -, rfl⟩ := List.mem_map.mp hedge
    rfl
  nodup := by
    have hinvocations : invocations.Nodup := .of_map _ hends
    rw [h, List.map_map]
    refine List.Nodup.map_on (fun first hfirst second hsecond hshown => ?_) (hinvocations.filter _)
    obtain ⟨hmem, hwithin⟩ := List.mem_filter.mp hfirst
    obtain ⟨hmem', hwithin'⟩ := List.mem_filter.mp hsecond
    obtain ⟨hcaller, hcallee⟩ := isWithin_iff.mp hwithin
    obtain ⟨hcaller', hcallee'⟩ := isWithin_iff.mp hwithin'
    obtain ⟨hsource, htarget⟩ := Prod.mk.inj hshown
    exact List.inj_on_of_nodup_map hends hmem hmem'
      (Prod.ext (eq_of_shown_eq hcaller hcaller' hsource) (eq_of_shown_eq hcallee hcallee' htarget))

/-- The ids of the edges within a component are unique exactly if no call within the component
continues another one. -/
theorem nodup_innerIds_iff
    (hends : (invocations.map fun invocation => (invocation.caller, invocation.callee)).Nodup)
    (h : child.edges = (invocations.filter (·.isWithin component)).map Invocation.toEdge) :
    child.edgeIds.Nodup ↔ ¬ ∃ first ∈ invocations, ∃ second ∈ invocations,
      first.isWithin component ∧ second.isWithin component
        ∧ Graph.Continues first.caller.shown first.callee.shown
          second.caller.shown second.callee.shown := by
  rw [(namesByEnds_inner hends h).nodup_edgeIds_iff, h]
  refine not_congr ⟨?_, ?_⟩
  · rintro ⟨_, hdrawn, _, hdrawn', hcontinues⟩
    obtain ⟨first, hkept, rfl⟩ := List.mem_map.mp hdrawn
    obtain ⟨second, hkept', rfl⟩ := List.mem_map.mp hdrawn'
    obtain ⟨hfirst, hwithin⟩ := List.mem_filter.mp hkept
    obtain ⟨hsecond, hwithin'⟩ := List.mem_filter.mp hkept'
    exact ⟨first, hfirst, second, hsecond, hwithin, hwithin', hcontinues⟩
  · rintro ⟨first, hfirst, second, hsecond, hwithin, hwithin', hcontinues⟩
    exact ⟨_, List.mem_map_of_mem (List.mem_filter.mpr ⟨hfirst, hwithin⟩),
      _, List.mem_map_of_mem (List.mem_filter.mpr ⟨hsecond, hwithin'⟩), hcontinues⟩

end Model

/-! ## What jobs leave -/

namespace Job

variable {models : Models}

theorem standsAtEnds_perform (job : Job) (h : models.execution.StandsAtEnds) :
    (job.perform models).2.execution.StandsAtEnds := by
  cases job with
  | operation now assembler site => exact h
  | account request =>
    rw [perform, Request.execution_perform]
    exact h.apply request.upsert

theorem standsAtEnds_performAll (jobs : List Job) (h : models.execution.StandsAtEnds) :
    (performAll jobs models).2.execution.StandsAtEnds := by
  induction jobs generalizing models with
  | nil => exact h
  | cons job jobs ih => exact ih (standsAtEnds_perform job h)

/-- **Where the ids of edges are unique.** Whatever assemblers add to the models, the edges between
components have different ids, and each is found by its own, exactly if no call between components
continues another one across the arrow; and in the graph of each component the edges have different
ids, and each is found by its own, exactly if no call within the component continues another one. -/
theorem edge_ids_unique_iff (label : String) (jobs : List Job) :
    let types := (performAll jobs {}).2.types
    let execution := (performAll jobs {}).2.execution
    let graph := architecture label types execution
    let invocations := execution.allInvocations
    ((graph.FindsEdges ↔ graph.edgeIds.Nodup)
        ∧ (graph.edgeIds.Nodup ↔ ¬ ∃ first ∈ invocations, ∃ second ∈ invocations,
          Graph.Continues first.caller.component first.callee.component
            second.caller.component second.callee.component))
      ∧ ∀ node ∈ graph.nodes, ∃ child, node.child = some child
        ∧ (child.FindsEdges ↔ child.edgeIds.Nodup)
        ∧ (child.edgeIds.Nodup ↔ ¬ ∃ first ∈ invocations, ∃ second ∈ invocations,
          first.isWithin node.id ∧ second.isWithin node.id
            ∧ Graph.Continues first.caller.shown first.callee.shown
              second.caller.shown second.callee.shown) := by
  intro types execution graph invocations
  have hempty : (Models.types {}).Holds [] := TypeModel.holds_empty
  have hholds : types.Holds (jobs.flatMap refs) := holds_performAll jobs hempty
  have hdraws := draws_architecture hholds label execution
  have hstart : (Models.execution {}).StandsAtEnds := ExecutionModel.standsAtEnds_empty
  have hends := (standsAtEnds_performAll jobs hstart).nodup_ends
  refine ⟨⟨?_, ?_⟩, fun node hnode => ?_⟩
  · have hnames := namesByEnds_outer Std.ExtTreeMap.nodup_keys hdraws.edges
    exact Graph.findsEdges_iff (.of_map _ hnames.nodup)
  · exact nodup_outerIds_iff Std.ExtTreeMap.nodup_keys (fun pair => mem_keys_componentCalls)
      hdraws.edges
  · obtain ⟨child, hchild, hinner⟩ := hdraws.child node hnode
    have hnames := namesByEnds_inner hends hinner.edges
    exact ⟨child, hchild, Graph.findsEdges_iff (.of_map _ hnames.nodup),
      nodup_innerIds_iff hends hinner.edges⟩

/-- A call between two components and one within the first of them, without arrows. -/
theorem edge_ids_unique_without_arrows :
    let jobs : List Job :=
      [.account ⟨default, "log", .call ⟨"a", "f()"⟩ ⟨"b", "g()"⟩ none⟩,
        .account ⟨default, "log", .call ⟨"a", "f()"⟩ ⟨"a", "h()"⟩ none⟩]
    let final := (performAll jobs {}).2
    let graph := architecture architectureLabel final.types final.execution
    graph.FindsEdges
      ∧ ∃ node ∈ graph.nodes, node.id = "a" ∧ ∃ child, node.child = some child
        ∧ child.edgeIds = ["a.f()->a.h()"] ∧ child.FindsEdges := by
  intro jobs final graph
  obtain ⟨⟨hfinds, -⟩, hnodes⟩ := edge_ids_unique_iff architectureLabel jobs
  have hids : graph.edgeIds.Nodup := by decide
  have hfirst : graph.nodes.head?.map Node.id = some "a" := by decide
  have hinner : (graph.nodes.head?.bind Node.child).map Graph.edgeIds = some ["a.f()->a.h()"] := by
    decide
  obtain ⟨node, hhead, hid⟩ := Option.map_eq_some_iff.mp hfirst
  have hmem : node ∈ graph.nodes := List.mem_of_mem_head? hhead
  obtain ⟨child, hchild, hfindsInner, -⟩ := hnodes node hmem
  rw [hhead, Option.bind_some, hchild, Option.map_some] at hinner
  have hinner := Option.some.inj hinner
  refine ⟨hfinds.mpr hids, node, hmem, hid, child, hchild, hinner, hfindsInner.mpr ?_⟩
  rw [hinner]
  decide

/-- Components that are named with an arrow. The call of `b->c` by `a` and the one of `c` by `a->b`
have an edge each, but both edges have the same id, so that the second one is not found. -/
theorem edge_id_shared :
    let jobs : List Job :=
      [.account ⟨default, "log", .call ⟨"a", "f()"⟩ ⟨"b->c", "g()"⟩ none⟩,
        .account ⟨default, "log", .call ⟨"a->b", "f()"⟩ ⟨"c", "g()"⟩ none⟩]
    let final := (performAll jobs {}).2
    let graph := architecture architectureLabel final.types final.execution
    graph.edges.map (fun edge => (edge.id, edge.source, edge.target))
        = [("a->b->c", "a", "b->c"), ("a->b->c", "a->b", "c")]
      ∧ ¬ graph.edgeIds.Nodup ∧ ¬ graph.FindsEdges := by
  intro jobs final graph
  have hids : ¬ graph.edgeIds.Nodup := by decide
  have hedges : graph.edges.Nodup := by decide
  exact ⟨by decide, hids, fun hfinds => hids ((Graph.findsEdges_iff hedges).mp hfinds)⟩

end Job

end CallTrace
