import CallTrace.Model.Architecture
import CallTrace.Proofs.Graph
import CallTrace.Proofs.Model.Types
import Mathlib.Algebra.BigOperators.Group.List.Basic
import Mathlib.Algebra.Ring.Nat
import Mathlib.Data.List.Induction

/-!
# The architecture shows the models

The architecture of a system is drawn in passes: the components and operations of the type model,
the ends of all invocations where they are missing, the invocations within components, and the calls
between components. Each pass adds to what has been drawn so far (`Draws`):

* a pass over operations adds a node for each of them, and one for its component, where they are
  missing (`Draws.ensureNodes`);
* a pass over edges leaves none of them out, because both ends have been drawn
  (`Draws.addInnerEdge`, `Draws.addOuterEdges`).

The last pass works on a table, which sums up the invocations of each pair of components
(`componentCalls_eq`). Together the passes show all that is in the models (`draws_architecture`).
-/

namespace CallTrace.Model

variable {graph child : Graph} {component : String} {components : String → Prop}
  {refs : OperationRef → Prop} {drawn invocations : List Invocation} {outer : List GraphEdge}
  {invocation : Invocation}

/-! ## Names -/

/-- Within a component, operations are shown by different texts. -/
theorem shown_injective {component operation other : String}
    (h : OperationRef.shown ⟨component, operation⟩ = OperationRef.shown ⟨component, other⟩) :
    operation = other := by
  unfold OperationRef.shown at h
  have hlist := congrArg String.toList h
  simp only [String.toList_append, List.append_cancel_left_eq] at hlist
  exact String.toList_inj.mp hlist

namespace Invocation

/-- The operations at both ends. -/
def ends (invocation : Invocation) : List OperationRef := [invocation.caller, invocation.callee]

/-- Both ends belong to this component. -/
def isWithin (invocation : Invocation) (component : String) : Bool :=
  invocation.caller.component = component && invocation.callee.component = component

/-- The edge of an invocation tells how often it was made. -/
theorem count_toEdge (invocation : Invocation) :
    invocation.toEdge.properties.get? "count" = some (toString invocation.statistics.count) := by
  have hne : ¬ "mean_duration_nanos" = "count" := by decide
  unfold toEdge
  split
  · simp only [Properties.get?_set, if_neg hne, if_true]
  · simp only [Properties.get?_set, if_true]

end Invocation

/-! ## What has been drawn so far -/

/-- The graph of a component has one node for each of its operations and one edge for each of the
invocations within it. -/
structure DrawsOperations (child : Graph) (component : String) (refs : OperationRef → Prop)
    (drawn : List Invocation) : Prop where
  nodup : child.nodeIds.Nodup
  mem_nodeIds : ∀ id, id ∈ child.nodeIds ↔ ∃ ref, refs ref ∧ ref.component = component
    ∧ ref.shown = id
  edges : child.edges = (drawn.filter (·.isWithin component)).map Invocation.toEdge

/-- The graph has one node for each of these components, with a graph of its operations and the
invocations within it, and these edges between components. -/
structure Draws (graph : Graph) (components : String → Prop) (refs : OperationRef → Prop)
    (drawn : List Invocation) (outer : List GraphEdge) : Prop where
  nodup : graph.nodeIds.Nodup
  mem_nodeIds : ∀ id, id ∈ graph.nodeIds ↔ components id
  component : ∀ ref, refs ref → components ref.component
  child : ∀ node ∈ graph.nodes, ∃ child, node.child = some child
    ∧ DrawsOperations child node.id refs drawn
  edges : graph.edges = outer

theorem DrawsOperations.shown_mem_nodeIds (h : DrawsOperations child component refs drawn)
    {ref : OperationRef} (hcomponent : ref.component = component) :
    ref.shown ∈ child.nodeIds ↔ refs ref := by
  rw [h.mem_nodeIds]
  constructor
  · rintro ⟨⟨other, operation⟩, hother, rfl, hshown⟩
    obtain ⟨_, _⟩ := ref
    obtain rfl := hcomponent
    obtain rfl := shown_injective hshown
    exact hother
  · exact fun href => ⟨ref, href, hcomponent, rfl⟩

theorem Draws.congr (h : Draws graph components refs drawn outer) {components' : String → Prop}
    {refs' : OperationRef → Prop} (hcomponents : ∀ id, components' id ↔ components id)
    (hrefs : ∀ ref, refs' ref ↔ refs ref) : Draws graph components' refs' drawn outer := by
  obtain rfl : components' = components := funext fun id => propext (hcomponents id)
  obtain rfl : refs' = refs := funext fun ref => propext (hrefs ref)
  exact h

/-- Only the operations of the component itself matter. -/
theorem DrawsOperations.congr (h : DrawsOperations child component refs drawn)
    {refs' : OperationRef → Prop}
    (hrefs : ∀ ref, ref.component = component → (refs' ref ↔ refs ref)) :
    DrawsOperations child component refs' drawn where
  nodup := h.nodup
  mem_nodeIds id := by
    rw [h.mem_nodeIds]
    exact exists_congr fun ref => and_congr_left fun hrest => (hrefs ref hrest.1).symm
  edges := h.edges

/-- Changing the graph of a component adds to what has been drawn there. -/
theorem Draws.modifyChild (h : Draws graph components refs drawn outer)
    {refs' : OperationRef → Prop} {drawn' : List Invocation} {f : Graph → Graph}
    (hchanged : ∀ child, DrawsOperations child component refs drawn →
      DrawsOperations (f child) component refs' drawn')
    (hothers : ∀ child other, other ≠ component → DrawsOperations child other refs drawn →
      DrawsOperations child other refs' drawn')
    (hcomponent : ∀ ref, refs' ref → components ref.component) :
    Draws (graph.modifyNode component (·.modifyChild f)) components refs' drawn' outer where
  nodup := by
    rw [Graph.nodeIds_modifyNode graph component (·.modifyChild f) fun _ => rfl]
    exact h.nodup
  mem_nodeIds id := by
    rw [Graph.nodeIds_modifyNode graph component (·.modifyChild f) fun _ => rfl]
    exact h.mem_nodeIds id
  component := hcomponent
  child node hnode := by
    rw [Graph.nodes_modifyNode h.nodup] at hnode
    obtain ⟨before, hbefore, rfl⟩ := List.mem_map.mp hnode
    obtain ⟨child, hchild, hdraws⟩ := h.child before hbefore
    split
    · next hid =>
      refine ⟨f child, ?_, ?_⟩
      · rw [Node.modifyChild, hchild, Option.map_some]
      · subst hid
        exact hchanged child hdraws
    · next hid => exact ⟨child, hchild, hothers child before.id hid hdraws⟩
  edges := h.edges

/-! ## The type model -/

namespace ComponentType

theorem id_toNode (component : ComponentType) : component.toNode.id = component.signature := by
  unfold toNode
  cases component.package <;> rfl

/-- The node of a component has a graph of the operations. -/
theorem exists_child_toNode (component : ComponentType)
    (hsignature : ∀ name operation, component.operation? name = some operation →
      operation.signature = name) :
    ∃ child, component.toNode.child = some child ∧ DrawsOperations child component.signature
      (fun ref => (component.operation? ref.operation).isSome) [] := by
  have hlookup : ∀ item ∈ component.operations.toList,
      component.operation? item.1 = some item.2 ∧ item.2.signature = item.1 := by
    rintro ⟨name, operation⟩ hitem
    have hsome := Std.ExtTreeMap.mem_toList_iff_getElem?_eq_some.mp hitem
    exact ⟨hsome, hsignature name operation hsome⟩
  refine ⟨_, rfl, ?_, fun id => ?_, rfl⟩
  · rw [Graph.nodeIds, List.map_map]
    refine List.pairwise_map.mpr (Std.ExtTreeMap.distinct_keys_toList.imp_of_mem ?_)
    intro first second hfirst hsecond hne hshown
    have hsame := shown_injective hshown
    rw [(hlookup first hfirst).2, (hlookup second hsecond).2] at hsame
    exact hne (Std.LawfulEqCmp.compare_eq_iff_eq.mpr hsame)
  · rw [Graph.nodeIds, List.map_map, List.mem_map]
    constructor
    · rintro ⟨item, hitem, rfl⟩
      obtain ⟨hsome, hname⟩ := hlookup item hitem
      refine ⟨⟨component.signature, item.2.signature⟩, ?_, rfl, rfl⟩
      rw [hname, hsome]
      rfl
    · rintro ⟨⟨_, name⟩, hknown, rfl, rfl⟩
      obtain ⟨operation, hsome⟩ := Option.isSome_iff_exists.mp hknown
      refine ⟨(name, operation), Std.ExtTreeMap.mem_toList_iff_getElem?_eq_some.mpr hsome, ?_⟩
      show OperationRef.shown ⟨_, operation.signature⟩ = _
      rw [hsignature name operation hsome]

end ComponentType

/-- **First the type model is drawn.** -/
theorem draws_types {types : TypeModel} {known : List OperationRef} (h : types.Holds known)
    (label : String) :
    Draws
      { label
        nodes := types.components.toList.map fun (_, component) => component.toNode
        edges := [] }
      (fun id => (types.component? id).isSome) (fun ref => (types.operation? ref).isSome) []
      [] := by
  have hids : (types.components.toList.map fun item => item.2.toNode).map (·.id)
      = types.components.keys := by
    rw [← Std.ExtTreeMap.map_fst_toList_eq_keys, List.map_map]
    refine List.map_congr_left fun item hitem => ?_
    have hsome := Std.ExtTreeMap.mem_toList_iff_getElem?_eq_some.mp hitem
    exact (ComponentType.id_toNode item.2).trans (h.component_signature hsome)
  constructor
  · rw [Graph.nodeIds, hids]
    exact Std.ExtTreeMap.nodup_keys
  · intro id
    rw [Graph.nodeIds, hids, Std.ExtTreeMap.mem_keys]
    exact Std.ExtTreeMap.isSome_getElem?_iff_mem.symm
  · intro ref href
    rw [TypeModel.operation?, Option.bind_eq_bind, Option.isSome_bind] at href
    exact Option.isSome_of_any href
  · intro node hnode
    obtain ⟨⟨key, component⟩, hitem, rfl⟩ := List.mem_map.mp hnode
    have hsome : types.component? key = some component :=
      Std.ExtTreeMap.mem_toList_iff_getElem?_eq_some.mp hitem
    obtain ⟨child, hchild, hdraws⟩ := component.exists_child_toNode fun _ _ hoperation =>
      h.operation_signature hsome hoperation
    rw [ComponentType.id_toNode]
    refine ⟨child, hchild, hdraws.congr fun ref hcomponent => ?_⟩
    rw [TypeModel.operation?, hcomponent, h.component_signature hsome, hsome]
    rfl
  · rfl

/-! ## Missing nodes -/

/-- Draws an operation in the graph of its component where it is missing. -/
def ensureOperation (child : Graph) (ref : OperationRef) : Graph :=
  if (child.findNode? ref.shown).isSome then child
  else child.addNode (.ofLabel ref.shown ref.operation)

/-- Draws a component, with an empty graph, where it is missing. -/
def ensureComponent (graph : Graph) (component : String) : Graph :=
  if (graph.findNode? component).isSome then graph
  else graph.addNode (Node.ofLabel component component).ensureChild

theorem DrawsOperations.ensureOperation (h : DrawsOperations child component refs drawn)
    {ref : OperationRef} (hcomponent : ref.component = component) :
    DrawsOperations (ensureOperation child ref) component (fun other => other = ref ∨ refs other)
      drawn := by
  have hdrawn := Graph.isSome_findNode?.trans (h.shown_mem_nodeIds hcomponent)
  unfold Model.ensureOperation
  split
  · next hknown =>
    refine h.congr fun other _ => or_iff_right_of_imp ?_
    rintro rfl
    exact hdrawn.mp hknown
  · next hmissing =>
    have hnew : ref.shown ∉ child.nodeIds := mt Graph.isSome_findNode?.mpr hmissing
    refine ⟨Graph.nodup_addNode h.nodup hnew, fun id => ?_, h.edges⟩
    rw [Graph.mem_nodeIds_addNode, h.mem_nodeIds]
    constructor
    · rintro (rfl | ⟨other, hother, hrest⟩)
      · exact ⟨ref, .inl rfl, hcomponent, rfl⟩
      · exact ⟨other, .inr hother, hrest⟩
    · rintro ⟨other, rfl | hother, hrest⟩
      · exact .inl hrest.2.symm
      · exact .inr ⟨other, hother, hrest⟩

theorem drawsOperations_empty (h : ∀ ref, refs ref → ref.component ≠ component) (label : String) :
    DrawsOperations (.empty label) component refs [] where
  nodup := .nil
  mem_nodeIds id := by
    refine iff_of_false List.not_mem_nil ?_
    rintro ⟨ref, href, hcomponent, -⟩
    exact h ref href hcomponent
  edges := rfl

/-- Before there are edges, a component may be added that is without operations so far. -/
theorem Draws.ensureComponent (h : Draws graph components refs [] outer) (component : String) :
    Draws (ensureComponent graph component) (fun id => id = component ∨ components id) refs []
      outer := by
  unfold Model.ensureComponent
  have hdrawn := Graph.isSome_findNode?.trans (h.mem_nodeIds component)
  split
  · next hknown =>
    refine h.congr (fun id => or_iff_right_of_imp ?_) fun ref => .rfl
    rintro rfl
    exact hdrawn.mp hknown
  · next hmissing =>
    have hnew : component ∉ graph.nodeIds := mt Graph.isSome_findNode?.mpr hmissing
    refine ⟨Graph.nodup_addNode h.nodup hnew, fun id => ?_,
      fun ref href => .inr (h.component ref href), fun node hnode => ?_, h.edges⟩
    · rw [Graph.mem_nodeIds_addNode, h.mem_nodeIds]
      rfl
    · rcases List.mem_append.mp hnode with hold | hadded
      · exact h.child node hold
      · obtain rfl := List.mem_singleton.mp hadded
        refine ⟨_, rfl, drawsOperations_empty ?_ component⟩
        rintro ref href rfl
        exact hmissing (hdrawn.mpr (h.component ref href))

theorem ensureNodes_eq (h : Draws graph components refs drawn outer) (ref : OperationRef) :
    ensureNodes graph ref = (ensureComponent graph ref.component).modifyNode ref.component
      (·.modifyChild (ensureOperation · ref)) := by
  unfold ensureNodes ensureComponent
  split
  · refine Graph.modifyNode_congr fun node hnode _ => ?_
    obtain ⟨child, hchild, -⟩ := h.child node hnode
    rw [Node.ensureChild, hchild]
    rfl
  · next hmissing =>
    have hnew : ref.component ∉ graph.nodeIds := mt Graph.isSome_findNode?.mpr hmissing
    have hadded := Graph.modifyNode_addNode (Node.ofLabel ref.component ref.component).ensureChild
      hnew (·.modifyChild (ensureOperation · ref))
    exact (Graph.modifyNode_addNode (.ofLabel ref.component ref.component) hnew _).trans hadded.symm

/-- **An operation is drawn, with its component, unless it is there already.** -/
theorem Draws.ensureNodes (h : Draws graph components refs [] outer) (ref : OperationRef) :
    Draws (ensureNodes graph ref) (fun id => id = ref.component ∨ components id)
      (fun other => other = ref ∨ refs other) [] outer := by
  rw [ensureNodes_eq h]
  refine (h.ensureComponent ref.component).modifyChild (fun child hchild => ?_)
    (fun child component hne hchild => ?_) ?_
  · exact hchild.ensureOperation rfl
  · refine hchild.congr fun other hother => or_iff_right_of_imp ?_
    rintro rfl
    exact absurd hother.symm hne
  · rintro other (rfl | hother)
    · exact .inl rfl
    · exact .inr (h.component other hother)

/-- The operations are drawn one after the other. -/
theorem Draws.ensureAll (h : Draws graph components refs [] outer) (added : List OperationRef) :
    Draws (added.foldl Model.ensureNodes graph)
      (fun id => components id ∨ ∃ ref ∈ added, ref.component = id)
      (fun ref => refs ref ∨ ref ∈ added) [] outer := by
  induction added generalizing graph components refs with
  | nil => simpa using h
  | cons ref added ih =>
    refine (ih (h.ensureNodes ref)).congr (fun id => ?_) (fun other => ?_)
    · simp [or_assoc, or_left_comm, eq_comm]
    · simp [or_assoc, or_left_comm]

/-! ## Invocations within components -/

theorem DrawsOperations.concat_of_not_within (h : DrawsOperations child component refs drawn)
    (hnot : ¬ invocation.isWithin component) :
    DrawsOperations child component refs (drawn ++ [invocation]) where
  nodup := h.nodup
  mem_nodeIds := h.mem_nodeIds
  edges := by
    have hnone : [invocation].filter (·.isWithin component) = [] := by simp [hnot]
    rw [h.edges, List.filter_append, hnone, List.append_nil]

theorem DrawsOperations.addEdge (h : DrawsOperations child component refs drawn)
    (hwithin : invocation.isWithin component) (hends : ∀ ref ∈ invocation.ends, refs ref) :
    DrawsOperations (child.addEdge invocation.toEdge) component refs (drawn ++ [invocation]) := by
  have hcomponents := hwithin
  simp only [Invocation.isWithin, Bool.and_eq_true, decide_eq_true_eq] at hcomponents
  have hcaller : invocation.caller.shown ∈ child.nodeIds :=
    (h.shown_mem_nodeIds hcomponents.1).mpr (hends _ (by simp [Invocation.ends]))
  have hcallee : invocation.callee.shown ∈ child.nodeIds :=
    (h.shown_mem_nodeIds hcomponents.2).mpr (hends _ (by simp [Invocation.ends]))
  have hadded : child.addEdge invocation.toEdge
      = { child with edges := child.edges ++ [invocation.toEdge] } :=
    Graph.addEdge_of_mem hcaller hcallee
  rw [hadded]
  refine ⟨h.nodup, h.mem_nodeIds, ?_⟩
  show child.edges ++ [invocation.toEdge] = _
  have hone : [invocation].filter (·.isWithin component) = [invocation] := by simp [hwithin]
  rw [h.edges, List.filter_append, hone, List.map_append, List.map_singleton]

/-- **An invocation within a component is drawn there**, because its ends are. -/
theorem Draws.addInnerEdge (h : Draws graph components refs drawn outer)
    (hends : ∀ ref ∈ invocation.ends, refs ref) :
    Draws (addInnerEdge graph invocation) components refs (drawn ++ [invocation]) outer := by
  unfold Model.addInnerEdge
  split
  · next hsame =>
    have hcallee : invocation.caller.component = invocation.callee.component :=
      of_decide_eq_true hsame
    refine h.modifyChild (fun child hchild => ?_) (fun child other hne hchild => ?_) h.component
    · exact hchild.addEdge (by simp [Invocation.isWithin, ← hcallee]) hends
    · exact hchild.concat_of_not_within (by simp [Invocation.isWithin, Ne.symm hne])
  · next hdiffer =>
    refine { h with child := fun node hnode => ?_ }
    obtain ⟨child, hchild, hdraws⟩ := h.child node hnode
    refine ⟨child, hchild, hdraws.concat_of_not_within fun hwithin => hdiffer ?_⟩
    simp only [Invocation.isWithin, Bool.and_eq_true, decide_eq_true_eq] at hwithin
    exact decide_eq_true (hwithin.1.trans hwithin.2.symm)

theorem Draws.addInnerEdges (h : Draws graph components refs drawn outer)
    (hends : ∀ invocation ∈ invocations, ∀ ref ∈ invocation.ends, refs ref) :
    Draws (invocations.foldl Model.addInnerEdge graph) components refs (drawn ++ invocations)
      outer := by
  induction invocations generalizing graph drawn with
  | nil => simpa using h
  | cons invocation invocations ih =>
    rw [List.append_cons]
    exact ih (h.addInnerEdge (hends invocation List.mem_cons_self))
      fun other hother => hends other (List.mem_cons_of_mem _ hother)

/-! ## Calls between components -/

/-- The invocations of one component by another. -/
def ComponentPair.invocationsIn (pair : ComponentPair) (invocations : List Invocation) :
    List Invocation :=
  invocations.filter (·.components = pair)

/-- The edge between two components sums up the invocations of the one by the other. -/
def ComponentPair.toEdge (pair : ComponentPair) (invocations : List Invocation) : GraphEdge where
  id := pair.caller ++ "->" ++ pair.callee
  source := pair.caller
  target := pair.callee
  label := "calls"
  properties := [
    ("count",
      toString (((pair.invocationsIn invocations).map (·.statistics.count.toNat)).sum % 2 ^ 64)),
    ("invocations", toString (pair.invocationsIn invocations).length)]

theorem componentCalls_concat (invocations : List Invocation) (invocation : Invocation) :
    componentCalls (invocations ++ [invocation])
      = let (count, number) := (componentCalls invocations)[invocation.components]?.getD (0, 0)
        (componentCalls invocations).insert invocation.components
          (count + invocation.statistics.count, number + 1) :=
  List.foldl_append ..

/-- **The table sums up the invocations of each pair of components.** -/
theorem componentCalls_eq (invocations : List Invocation) (pair : ComponentPair) :
    (componentCalls invocations)[pair]?
      = if pair.invocationsIn invocations = [] then none
        else some
          (.ofNat ((pair.invocationsIn invocations).map (·.statistics.count.toNat)).sum,
            (pair.invocationsIn invocations).length) := by
  induction invocations using List.reverseRecOn with
  | nil => simp [componentCalls, ComponentPair.invocationsIn]
  | append_singleton invocations invocation ih =>
    have hconcat : pair.invocationsIn (invocations ++ [invocation])
        = pair.invocationsIn invocations
          ++ if invocation.components = pair then [invocation] else [] := by
      rw [ComponentPair.invocationsIn, List.filter_append]
      congr 1
      by_cases h : invocation.components = pair <;> simp [h]
    rw [componentCalls_concat, Std.ExtTreeMap.getElem?_insert, hconcat]
    simp only [Std.LawfulEqCmp.compare_eq_iff_eq]
    by_cases hpair : invocation.components = pair
    · subst hpair
      have hbefore : (componentCalls invocations)[invocation.components]?.getD (0, 0)
          = (.ofNat ((invocation.components.invocationsIn invocations).map
              (·.statistics.count.toNat)).sum,
            (invocation.components.invocationsIn invocations).length) := by
        rw [ih]
        split
        · next hnil => simp [hnil]
        · rfl
      rw [hbefore]
      simp [UInt64.ofNat_add]
    · simpa [hpair] using ih

theorem mem_keys_componentCalls {pair : ComponentPair} :
    pair ∈ (componentCalls invocations).keys
      ↔ ∃ invocation ∈ invocations, invocation.components = pair := by
  rw [Std.ExtTreeMap.mem_keys, ← Std.ExtTreeMap.isSome_getElem?_iff_mem, componentCalls_eq]
  have hnil : pair.invocationsIn invocations = []
      ↔ ¬ ∃ invocation ∈ invocations, invocation.components = pair := by
    simp [ComponentPair.invocationsIn]
  split
  · next hnone => simpa using hnil.mp hnone
  · next hsome => simpa using not_not.mp (mt hnil.mpr hsome)

theorem addOuterEdge_eq (graph : Graph) (pair : ComponentPair) (invocations : List Invocation) :
    addOuterEdge graph pair
        (.ofNat ((pair.invocationsIn invocations).map (·.statistics.count.toNat)).sum)
        (pair.invocationsIn invocations).length
      = graph.addEdge (pair.toEdge invocations) := rfl

/-- The edges of the table are those of the pairs of components in it. -/
theorem foldl_addOuterEdge (graph : Graph) (invocations : List Invocation) :
    (componentCalls invocations).toList.foldl
        (fun graph (pair, count, number) => addOuterEdge graph pair count number) graph
      = (componentCalls invocations).keys.foldl
        (fun graph pair => graph.addEdge (pair.toEdge invocations)) graph := by
  rw [← Std.ExtTreeMap.map_fst_toList_eq_keys, List.foldl_map]
  refine List.foldl_ext _ _ graph fun graph item hitem => ?_
  obtain ⟨pair, count, number⟩ := item
  have hlookup := Std.ExtTreeMap.mem_toList_iff_getElem?_eq_some.mp hitem
  rw [componentCalls_eq] at hlookup
  split at hlookup
  · cases hlookup
  · obtain ⟨rfl, rfl⟩ := Prod.mk.inj (Option.some.inj hlookup)
    exact addOuterEdge_eq graph pair invocations

/-- **The calls between components are drawn**, because the components are. -/
theorem Draws.addOuterEdges (h : Draws graph components refs drawn outer)
    (invocations : List Invocation) (pairs : List ComponentPair)
    (hpairs : ∀ pair ∈ pairs, components pair.caller ∧ components pair.callee) :
    Draws (pairs.foldl (fun graph pair => graph.addEdge (pair.toEdge invocations)) graph) components
      refs drawn (outer ++ pairs.map (·.toEdge invocations)) := by
  induction pairs generalizing graph outer with
  | nil => simpa using h
  | cons pair pairs ih =>
    obtain ⟨hcaller, hcallee⟩ := hpairs pair List.mem_cons_self
    have hadded : graph.addEdge (pair.toEdge invocations)
        = { graph with edges := graph.edges ++ [pair.toEdge invocations] } :=
      Graph.addEdge_of_mem ((h.mem_nodeIds _).mpr hcaller) ((h.mem_nodeIds _).mpr hcallee)
    rw [List.foldl_cons, hadded, List.map_cons, List.append_cons outer]
    refine ih ?_ fun other hother => hpairs other (List.mem_cons_of_mem _ hother)
    exact { h with edges := congrArg (· ++ [pair.toEdge invocations]) h.edges }

/-! ## The architecture -/

/-- A component is in the type model, or there are invocations from it or of it. -/
def KnowsComponent (types : TypeModel) (execution : ExecutionModel) (id : String) : Prop :=
  (types.component? id).isSome
    ∨ ∃ invocation ∈ execution.allInvocations, ∃ ref ∈ invocation.ends, ref.component = id

/-- An operation is in the type model, or there are invocations from it or of it. -/
def KnowsOperation (types : TypeModel) (execution : ExecutionModel) (ref : OperationRef) : Prop :=
  (types.operation? ref).isSome ∨ ∃ invocation ∈ execution.allInvocations, ref ∈ invocation.ends

/-- **All that is in the models is drawn**: what one of them or both know, and every invocation. -/
theorem draws_architecture {types : TypeModel} {known : List OperationRef}
    (h : types.Holds known) (label : String) (execution : ExecutionModel) :
    Draws (architecture label types execution) (KnowsComponent types execution)
      (KnowsOperation types execution) execution.allInvocations
      ((componentCalls execution.allInvocations).keys.map (·.toEdge execution.allInvocations)) := by
  let invocations := execution.allInvocations
  have hnodes := (draws_types h label).ensureAll (invocations.flatMap Invocation.ends)
  have hcomponents : ∀ id, KnowsComponent types execution id ↔ (types.component? id).isSome
      ∨ ∃ ref ∈ invocations.flatMap Invocation.ends, ref.component = id := by
    intro id
    refine or_congr_right ?_
    simp only [List.mem_flatMap]
    constructor
    · rintro ⟨invocation, hinvocation, ref, href, hid⟩
      exact ⟨ref, ⟨invocation, hinvocation, href⟩, hid⟩
    · rintro ⟨ref, ⟨invocation, hinvocation, href⟩, hid⟩
      exact ⟨invocation, hinvocation, ref, href, hid⟩
  have hoperations : ∀ ref, KnowsOperation types execution ref ↔ (types.operation? ref).isSome
      ∨ ref ∈ invocations.flatMap Invocation.ends := by
    intro ref
    rw [KnowsOperation, List.mem_flatMap]
  rw [List.foldl_flatMap] at hnodes
  have hinner := (hnodes.congr hcomponents hoperations).addInnerEdges
    fun invocation hinvocation ref href => .inr ⟨invocation, hinvocation, href⟩
  have hends : ∀ pair ∈ (componentCalls invocations).keys,
      KnowsComponent types execution pair.caller ∧ KnowsComponent types execution pair.callee := by
    intro pair hpair
    obtain ⟨invocation, hinvocation, rfl⟩ := mem_keys_componentCalls.mp hpair
    exact ⟨.inr ⟨invocation, hinvocation, invocation.caller, by simp [Invocation.ends], rfl⟩,
      .inr ⟨invocation, hinvocation, invocation.callee, by simp [Invocation.ends], rfl⟩⟩
  have houter := hinner.addOuterEdges invocations _ hends
  rwa [← foldl_addOuterEdge] at houter

end CallTrace.Model
