import CallTrace.Graph
import Mathlib.Data.List.Nodup

/-!
# What a walk through a graph tells

The walk through a graph is all that a reader of the graph gets to see. It is

* balanced: graphs are left in the opposite order of entering them, and each visit is made at the
  depth at which the graphs around it are nested (`followAll_visits`);
* complete: each node and each edge of each nested graph is visited exactly once. They are told
  apart by where they stand (`Stop`), since neither ids nor contents need to be different
  (`map_visits`, `mem_stops_iff`, `nodup_stops`);
* faithful: it can be read in one way only, so different graphs have different walks
  (`Graph.isReadOnce`).

The proofs go by induction on the nesting of graphs (`Graph.nested_induction`).
-/

namespace CallTrace

/-! ## Nested graphs -/

/-- What holds of a graph if it holds of the graphs that its nodes own, holds of every graph. -/
theorem Graph.nested_induction {P : Graph → Prop}
    (step : ∀ graph : Graph, (∀ node ∈ graph.nodes, ∀ child ∈ node.child, P child) → P graph)
    (graph : Graph) : P graph := by
  refine @Graph.rec P (fun node => ∀ child ∈ node.child, P child)
    (fun nodes => ∀ node ∈ nodes, ∀ child ∈ node.child, P child)
    (fun child => ∀ graph ∈ child, P graph)
    (fun label nodes edges hnodes => step ⟨label, nodes, edges⟩ hnodes)
    (fun id label properties child hchild => hchild)
    nofun
    (fun node nodes hnode hnodes other hother => ?_)
    nofun
    (fun child hchild graph hgraph => ?_)
    graph
  · rcases List.mem_cons.mp hother with rfl | hlater
    · exact hnode
    · exact hnodes other hlater
  · obtain rfl := Option.some.inj hgraph
    exact hchild

theorem Node.visits_eq (depth : Nat) (node : Node) :
    Node.visits depth node = .node node.id node.label node.properties depth
      :: node.child.elim [] (Graph.visits (depth + 1)) := by
  obtain ⟨id, label, properties, child⟩ := node
  cases child <;> simp [Node.visits, Graph.visitsChild]

theorem Node.visitsAll_eq (depth : Nat) (nodes : List Node) :
    Node.visitsAll depth nodes = nodes.flatMap (Node.visits depth) := by
  induction nodes with
  | nil => simp [Node.visitsAll]
  | cons node nodes ih => simp [Node.visitsAll, ih]

theorem Graph.visits_eq (depth : Nat) (graph : Graph) :
    Graph.visits depth graph = .enter graph.label depth
      :: (graph.nodes.flatMap (Node.visits depth)
        ++ (graph.edges.map (Visit.edge · depth) ++ [.leave graph.label depth])) := by
  obtain ⟨label, nodes, edges⟩ := graph
  simp [Graph.visits, Node.visitsAll_eq]

/-! ## Entering and leaving -/

/-- Follows one visit, given the labels of the graphs that have been entered and not yet left, the
innermost first. A visit at another depth, or leaving another graph than the innermost, is wrong. -/
def Visit.follow (entered : List String) : Visit → Option (List String)
  | .enter label depth => if depth = entered.length then some (label :: entered) else none
  | .node _ _ _ depth => if depth + 1 = entered.length then some entered else none
  | .edge _ depth => if depth + 1 = entered.length then some entered else none
  | .leave label depth =>
    match entered with
    | [] => none
    | innermost :: others =>
      if label = innermost ∧ depth = others.length then some others else none

/-- Follows visits one after the other. -/
def Visit.followAll (entered : List String) (visits : List Visit) : Option (List String) :=
  visits.foldlM Visit.follow entered

namespace Visit

variable {entered : List String}

theorem followAll_cons (visit : Visit) (visits : List Visit) :
    followAll entered (visit :: visits) = (visit.follow entered).bind (followAll · visits) := rfl

theorem followAll_append (visits others : List Visit) :
    followAll entered (visits ++ others)
      = (followAll entered visits).bind (followAll · others) := by
  exact List.foldlM_append

theorem followAll_flatMap {α : Type} {items : List α} {visits : α → List Visit}
    (h : ∀ item ∈ items, followAll entered (visits item) = some entered) :
    followAll entered (items.flatMap visits) = some entered := by
  induction items with
  | nil => rfl
  | cons item items ih =>
    rw [List.flatMap_cons, followAll_append, h item List.mem_cons_self, Option.bind_some]
    exact ih fun other hother => h other (List.mem_cons_of_mem _ hother)

end Visit

open Visit in
/-- **A walk is balanced**: it leaves what it enters, and the depth counts the graphs around. -/
theorem Graph.followAll_visits (graph : Graph) (entered : List String) :
    followAll entered (graph.visits entered.length) = some entered := by
  induction graph using Graph.nested_induction generalizing entered with
  | step graph ih =>
    have hnodes : followAll (graph.label :: entered)
        (graph.nodes.flatMap (Node.visits entered.length)) = some (graph.label :: entered) := by
      refine followAll_flatMap fun node hnode => ?_
      rw [Node.visits_eq, followAll_cons, follow, if_pos List.length_cons.symm, Option.bind_some]
      cases hchild : node.child with
      | none => rfl
      | some child => exact ih node hnode child hchild (graph.label :: entered)
    have hedges : followAll (graph.label :: entered)
        (graph.edges.map (Visit.edge · entered.length)) = some (graph.label :: entered) := by
      rw [List.map_eq_flatMap]
      refine followAll_flatMap fun edge _ => ?_
      rw [followAll_cons, follow, if_pos List.length_cons.symm]
      rfl
    rw [Graph.visits_eq, followAll_cons, follow, if_pos rfl, Option.bind_some, followAll_append,
      hnodes, Option.bind_some, followAll_append, hedges, Option.bind_some, followAll_cons, follow,
      if_pos ⟨rfl, rfl⟩]
    rfl

/-! ## Stops -/

/-- The graph that is reached by following nodes, given by their positions, into the graphs they
own. -/
def Graph.nested? (graph : Graph) : List Nat → Option Graph
  | [] => some graph
  | i :: path => do
    let child ← (← graph.nodes[i]?).child
    child.nested? path

/-- Where a walk stops: at the beginning and the end of the graph with a path, and at each node and
each edge of it, given by its position. -/
inductive Stop where
  | enter (path : List Nat)
  | node (path : List Nat) (i : Nat)
  | edge (path : List Nat) (i : Nat)
  | leave (path : List Nat)
  deriving DecidableEq

namespace Stop

/-- The stop in the graph around, where it lies in the graph of the node at this position. -/
def under (i : Nat) : Stop → Stop
  | enter path => enter (i :: path)
  | node path j => node (i :: path) j
  | edge path j => edge (i :: path) j
  | leave path => leave (i :: path)

/-- The position of the outermost node that the stop is at, or in the graph of. -/
def position? : Stop → Option Nat
  | node [] i => some i
  | enter path | node path _ | edge path _ | leave path => path.head?

theorem position?_under (i : Nat) (stop : Stop) : (stop.under i).position? = some i := by
  cases stop <;> rfl

theorem under_injective (i : Nat) : Function.Injective (under i) := by
  intro stop other h
  cases stop <;> cases other <;> simp_all [under]

end Stop

namespace Graph

/-- What is to be seen at a stop, if there is such a stop. The graph itself lies at some depth. -/
def visitAt? (depth : Nat) (graph : Graph) : Stop → Option Visit
  | .enter path => (graph.nested? path).map fun inner => .enter inner.label (depth + path.length)
  | .node path i => ((graph.nested? path).bind (·.nodes[i]?)).map fun node =>
    .node node.id node.label node.properties (depth + path.length)
  | .edge path i => ((graph.nested? path).bind (·.edges[i]?)).map fun edge =>
    .edge edge (depth + path.length)
  | .leave path => (graph.nested? path).map fun inner => .leave inner.label (depth + path.length)

/-- The stops in the graph of a node are those of the graph around, one level further down. -/
theorem visitAt?_under {graph child : Graph} {node : Node} {i : Nat} (depth : Nat)
    (hnode : graph.nodes[i]? = some node) (hchild : node.child = some child) (stop : Stop) :
    graph.visitAt? depth (stop.under i) = child.visitAt? (depth + 1) stop := by
  have hnested : ∀ path, graph.nested? (i :: path) = child.nested? path := by
    intro path
    rw [nested?, hnode]
    show node.child.bind _ = _
    rw [hchild]
    rfl
  have hdepth : ∀ path : List Nat, depth + (i :: path).length = depth + 1 + path.length := by
    intro path
    rw [List.length_cons]
    omega
  cases stop <;> simp [Stop.under, visitAt?, hnested, hdepth, -List.length_cons]

theorem visitAt?_under_eq_none {graph : Graph} {i : Nat} (depth : Nat)
    (h : graph.nodes[i]?.bind Node.child = none) (stop : Stop) :
    graph.visitAt? depth (stop.under i) = none := by
  have hnested : ∀ path, graph.nested? (i :: path) = none := by
    intro path
    show graph.nodes[i]?.bind (fun node => node.child.bind _) = none
    rw [← Option.bind_assoc, h]
    rfl
  cases stop <;> simp [Stop.under, visitAt?, hnested]

end Graph

/-! ## The stops of a walk -/

mutual

/-- The stops of the walk through a graph. -/
def Graph.stops : Graph → List Stop
  | ⟨_, nodes, edges⟩ =>
    .enter [] :: (Node.stopsAll 0 nodes ++ ((List.range edges.length).map (.edge [])
      ++ [.leave []]))

/-- The stops at nodes, the first of which has this position, and in the graphs they own. -/
def Node.stopsAll (i : Nat) : List Node → List Stop
  | [] => []
  | node :: rest => Node.stops i node ++ Node.stopsAll (i + 1) rest

/-- The stops at a node and in the graph it owns. -/
def Node.stops (i : Nat) : Node → List Stop
  | ⟨_, _, _, child⟩ => .node [] i :: (Graph.stopsChild child).map (.under i)

/-- The stops in a graph that may not be there. -/
def Graph.stopsChild : Option Graph → List Stop
  | none => []
  | some graph => Graph.stops graph

end

theorem Node.stops_eq (i : Nat) (node : Node) :
    node.stops i = .node [] i :: (node.child.elim [] Graph.stops).map (.under i) := by
  obtain ⟨id, label, properties, child⟩ := node
  cases child <;> simp [Node.stops, Graph.stopsChild]

theorem Node.stopsAll_eq (i : Nat) (nodes : List Node) :
    Node.stopsAll i nodes = (nodes.zipIdx i).flatMap fun item => item.1.stops item.2 := by
  induction nodes generalizing i with
  | nil => simp [Node.stopsAll]
  | cons node nodes ih => simp [Node.stopsAll, ih]

theorem Graph.stops_eq (graph : Graph) :
    graph.stops = .enter [] :: (graph.nodes.zipIdx.flatMap (fun item => item.1.stops item.2)
      ++ ((List.range graph.edges.length).map (.edge []) ++ [.leave []])) := by
  obtain ⟨label, nodes, edges⟩ := graph
  simp [Graph.stops, Node.stopsAll_eq]

theorem Node.map_visits {graph : Graph} {node : Node} {i : Nat} (depth : Nat)
    (hnode : graph.nodes[i]? = some node)
    (ih : ∀ child ∈ node.child,
      (child.visits (depth + 1)).map some = child.stops.map (child.visitAt? (depth + 1))) :
    (node.visits depth).map some = (node.stops i).map (graph.visitAt? depth) := by
  have hhere : graph.visitAt? depth (.node [] i)
      = some (.node node.id node.label node.properties depth) := by
    simp [Graph.visitAt?, Graph.nested?, hnode]
  rw [Node.visits_eq, Node.stops_eq, List.map_cons, List.map_cons, hhere]
  cases hchild : node.child with
  | none => rfl
  | some child =>
    have hunder : graph.visitAt? depth ∘ Stop.under i = child.visitAt? (depth + 1) :=
      funext fun stop => Graph.visitAt?_under depth hnode hchild stop
    rw [Option.elim_some, Option.elim_some, List.map_map, hunder, ih child hchild]

/-- **Each visit of a walk shows what is to be seen at its stop.** -/
theorem Graph.map_visits (graph : Graph) (depth : Nat) :
    (graph.visits depth).map some = graph.stops.map (graph.visitAt? depth) := by
  induction graph using Graph.nested_induction generalizing depth with
  | step graph ih =>
    have hnodes : (graph.nodes.flatMap (Node.visits depth)).map some
        = (graph.nodes.zipIdx.flatMap fun item => item.1.stops item.2).map
          (graph.visitAt? depth) := by
      rw [← List.zipIdx_map_fst 0 graph.nodes, List.flatMap_map, List.zipIdx_map_fst,
        List.map_flatMap, List.map_flatMap]
      refine List.flatMap_congr fun item hitem => ?_
      have hnode := List.mem_zipIdx_iff_getElem?.mp hitem
      exact Node.map_visits depth hnode fun child hchild =>
        ih item.1 (List.mem_of_getElem? hnode) child hchild (depth + 1)
    have hedges : (graph.edges.map (Visit.edge · depth)).map some
        = ((List.range graph.edges.length).map (Stop.edge [])).map (graph.visitAt? depth) := by
      refine List.ext_getElem (by simp) fun i hi _ => ?_
      have hedge : i < graph.edges.length := by simpa using hi
      simp [visitAt?, nested?, hedge]
    rw [Graph.visits_eq, Graph.stops_eq]
    simp only [List.map_cons, List.map_append, hnodes, hedges]
    rfl

theorem Node.mem_stops {node : Node} {i : Nat} {stop : Stop} :
    stop ∈ node.stops i
      ↔ stop = .node [] i ∨ ∃ child ∈ node.child, ∃ inner ∈ child.stops, inner.under i = stop := by
  rw [Node.stops_eq, List.mem_cons]
  refine or_congr_right ?_
  cases node.child <;> simp

theorem Node.position?_of_mem_stops {node : Node} {i : Nat} {stop : Stop}
    (h : stop ∈ node.stops i) : stop.position? = some i := by
  obtain rfl | ⟨child, -, inner, -, rfl⟩ := Node.mem_stops.mp h
  · rfl
  · exact inner.position?_under i

namespace Graph

variable {graph : Graph} {stop : Stop}

theorem mem_stops : stop ∈ graph.stops ↔ stop = .enter []
    ∨ (∃ i, ∃ node : Node, graph.nodes[i]? = some node ∧ stop ∈ node.stops i)
    ∨ (∃ i < graph.edges.length, stop = .edge [] i) ∨ stop = .leave [] := by
  have hnodes : stop ∈ graph.nodes.zipIdx.flatMap (fun item => item.1.stops item.2)
      ↔ ∃ i, ∃ node : Node, graph.nodes[i]? = some node ∧ stop ∈ node.stops i := by
    simp only [List.mem_flatMap, Prod.exists, List.mk_mem_zipIdx_iff_getElem?]
    exact exists_comm
  simp only [Graph.stops_eq, List.mem_cons, List.mem_append, hnodes, List.mem_map, List.mem_range,
    List.not_mem_nil, or_false, @eq_comm _ _ stop]

/-- Within the graph of a node, a walk stops where the walk through that graph stops. -/
theorem under_mem_stops {i : Nat} : stop.under i ∈ graph.stops
    ↔ ∃ node : Node, graph.nodes[i]? = some node ∧ ∃ child ∈ node.child, stop ∈ child.stops := by
  rw [mem_stops]
  constructor
  · rintro (h | ⟨j, node, hnode, hstop⟩ | ⟨j, -, h⟩ | h)
    · cases stop <;> cases h
    · have hposition := Node.position?_of_mem_stops hstop
      rw [Stop.position?_under] at hposition
      obtain rfl := Option.some.inj hposition
      obtain hnode' | ⟨child, hchild, inner, hinner, hsame⟩ := Node.mem_stops.mp hstop
      · cases stop <;> cases hnode'
      · obtain rfl := Stop.under_injective i hsame
        exact ⟨node, hnode, child, hchild, hinner⟩
    · cases stop <;> cases h
    · cases stop <;> cases h
  · rintro ⟨node, hnode, child, hchild, hstop⟩
    have hmem : stop.under i ∈ node.stops i :=
      Node.mem_stops.mpr (.inr ⟨child, hchild, stop, hstop, rfl⟩)
    exact .inr (.inl ⟨i, node, hnode, hmem⟩)

theorem node_mem_stops {i : Nat} : .node [] i ∈ graph.stops ↔ i < graph.nodes.length := by
  rw [mem_stops]
  constructor
  · rintro (h | ⟨j, node, hnode, hstop⟩ | ⟨j, -, h⟩ | h)
    · cases h
    · obtain rfl := Option.some.inj (Node.position?_of_mem_stops hstop)
      exact (List.getElem?_eq_some_iff.mp hnode).1
    · cases h
    · cases h
  · intro hi
    have hnode := List.getElem?_eq_getElem hi
    exact .inr (.inl ⟨i, graph.nodes[i], hnode, Node.mem_stops.mpr (.inl rfl)⟩)

theorem edge_mem_stops {i : Nat} : .edge [] i ∈ graph.stops ↔ i < graph.edges.length := by
  rw [mem_stops]
  constructor
  · rintro (h | ⟨j, node, -, hstop⟩ | ⟨j, hj, h⟩ | h)
    · cases h
    · cases Node.position?_of_mem_stops hstop
    · cases h
      exact hj
    · cases h
  · exact fun hi => .inr (.inr (.inl ⟨i, hi, rfl⟩))

/-- **A walk stops wherever there is something to be seen.** -/
theorem mem_stops_iff (graph : Graph) (depth : Nat) (stop : Stop) :
    stop ∈ graph.stops ↔ (graph.visitAt? depth stop).isSome := by
  induction graph using Graph.nested_induction generalizing depth stop with
  | step graph ih =>
    have hunder : ∀ i inner, Stop.under i inner ∈ graph.stops
        ↔ (graph.visitAt? depth (inner.under i)).isSome := by
      intro i inner
      rw [under_mem_stops]
      cases howned : graph.nodes[i]?.bind Node.child with
      | none =>
        rw [visitAt?_under_eq_none depth howned]
        refine iff_of_false ?_ nofun
        rintro ⟨node, hnode, child, hchild, -⟩
        rw [hnode, Option.bind_some, hchild] at howned
        cases howned
      | some child =>
        obtain ⟨node, hnode, hchild⟩ := Option.bind_eq_some_iff.mp howned
        rw [visitAt?_under depth hnode hchild,
          ← ih node (List.mem_of_getElem? hnode) child hchild (depth + 1)]
        refine ⟨?_, fun hinner => ⟨node, hnode, child, hchild, hinner⟩⟩
        rintro ⟨other, hother, owned, howned', hinner⟩
        rw [hother, Option.bind_some, howned'] at howned
        exact Option.some.inj howned ▸ hinner
    match stop with
    | .enter [] => exact iff_of_true (mem_stops.mpr (.inl rfl)) rfl
    | .leave [] => exact iff_of_true (mem_stops.mpr (.inr (.inr (.inr rfl)))) rfl
    | .node [] i => rw [node_mem_stops]; simp [visitAt?, nested?]
    | .edge [] i => rw [edge_mem_stops]; simp [visitAt?, nested?]
    | .enter (i :: path) => exact hunder i (.enter path)
    | .leave (i :: path) => exact hunder i (.leave path)
    | .node (i :: path) j => exact hunder i (.node path j)
    | .edge (i :: path) j => exact hunder i (.edge path j)

/-- **A walk does not stop anywhere twice.** -/
theorem nodup_stops (graph : Graph) : graph.stops.Nodup := by
  induction graph using Graph.nested_induction with
  | step graph ih =>
    have hnode : ∀ item ∈ graph.nodes.zipIdx, (item.1.stops item.2).Nodup := by
      rintro ⟨node, i⟩ hitem
      have hmem := List.mem_of_getElem? (List.mk_mem_zipIdx_iff_getElem?.mp hitem)
      rw [Node.stops_eq, List.nodup_cons]
      constructor
      · rw [List.mem_map]
        rintro ⟨inner, -, hsame⟩
        cases inner <;> cases hsame
      · refine List.Nodup.map (Stop.under_injective i) ?_
        cases hchild : node.child with
        | none => exact .nil
        | some child => exact ih node hmem child hchild
    have hapart : graph.nodes.zipIdx.Pairwise
        (Function.onFun List.Disjoint fun item => item.1.stops item.2) := by
      have hpositions : (graph.nodes.zipIdx.map Prod.snd).Nodup := by
        rw [List.zipIdx_map_snd]
        exact List.nodup_range'
      refine (List.pairwise_map.mp hpositions).imp fun hne stop hstop hother => hne ?_
      have hposition := Node.position?_of_mem_stops hstop
      rw [Node.position?_of_mem_stops hother] at hposition
      exact (Option.some.inj hposition).symm
    have hedges : ((List.range graph.edges.length).map (Stop.edge [])).Nodup :=
      List.nodup_range.map fun i j h => (Stop.edge.inj h).2
    -- only the stops at the nodes and further down are at or below a node
    have hinside : ∀ stop ∈ graph.nodes.zipIdx.flatMap (fun item => item.1.stops item.2),
        stop.position? ≠ none := by
      intro stop hstop
      obtain ⟨item, -, hmem⟩ := List.mem_flatMap.mp hstop
      rw [Node.position?_of_mem_stops hmem]
      nofun
    have hrest : .enter [] ∉ (List.range graph.edges.length).map (Stop.edge []) ++ [.leave []] := by
      simp
    rw [stops_eq]
    refine List.nodup_cons.mpr ⟨?_, List.nodup_append'.mpr ⟨List.nodup_flatMap.mpr ⟨hnode, hapart⟩,
      List.nodup_append'.mpr ⟨hedges, List.nodup_singleton _, ?_⟩, ?_⟩⟩
    · exact fun hmem => (List.mem_append.mp hmem).elim (fun h => hinside _ h rfl) hrest
    · simp
    · rintro stop hstop hother
      refine hinside stop hstop ?_
      rcases List.mem_append.mp hother with hedge | hleave
      · obtain ⟨i, -, rfl⟩ := List.mem_map.mp hedge
        rfl
      · obtain rfl := List.mem_singleton.mp hleave
        rfl

end Graph

/-! ## Reading a walk -/

namespace Visit

/-- The visit enters a graph. -/
def isEnter : Visit → Bool
  | enter .. => true
  | node .. | edge .. | leave .. => false

/-- The visit is one of those behind all nodes: it is at an edge, or leaves the graph. -/
def isBehindNodes : Visit → Bool
  | edge .. | leave .. => true
  | enter .. | node .. => false

theorem not_isEnter_of_isBehindNodes {visit : Visit} (h : visit.isBehindNodes) :
    ¬ visit.isEnter := by
  cases visit with
  | enter | node => cases h
  | edge | leave => nofun

end Visit

variable {depth : Nat} {rest rest' : List Visit}

theorem not_isEnter_flatMap_visits (nodes : List Node)
    (hrest : ∀ visit ∈ rest.head?, visit.isBehindNodes) :
    ∀ visit ∈ (nodes.flatMap (Node.visits depth) ++ rest).head?, ¬ visit.isEnter := by
  cases nodes with
  | nil => exact fun visit hvisit => Visit.not_isEnter_of_isBehindNodes (hrest visit hvisit)
  | cons node nodes =>
    rw [List.flatMap_cons, Node.visits_eq]
    rintro visit hvisit
    obtain rfl := Option.some.inj hvisit
    nofun

/-- What is known of the walk through a graph with anything behind it: it can be read in one way
only. -/
def Graph.IsReadOnce (graph : Graph) : Prop :=
  ∀ (depth : Nat) (other : Graph) (rest rest' : List Visit),
    graph.visits depth ++ rest = other.visits depth ++ rest' → graph = other ∧ rest = rest'

theorem Node.visits_append_inj {node other : Node}
    (hchild : ∀ child ∈ node.child, child.IsReadOnce)
    (hrest : ∀ visit ∈ rest.head?, ¬ visit.isEnter)
    (hrest' : ∀ visit ∈ rest'.head?, ¬ visit.isEnter)
    (h : node.visits depth ++ rest = other.visits depth ++ rest') :
    node = other ∧ rest = rest' := by
  obtain ⟨id, label, properties, child⟩ := node
  obtain ⟨id', label', properties', child'⟩ := other
  simp only [Node.visits_eq, List.cons_append, List.cons.injEq, Visit.node.injEq] at h
  obtain ⟨⟨rfl, rfl, rfl, -⟩, hrests⟩ := h
  cases child with
  | none =>
    cases child' with
    | none => exact ⟨rfl, hrests⟩
    | some owned =>
      rw [Option.elim_none, List.nil_append, Option.elim_some, Graph.visits_eq] at hrests
      exact absurd rfl (hrest (.enter owned.label (depth + 1)) (by simp [hrests]))
  | some child =>
    cases child' with
    | none =>
      rw [Option.elim_none, List.nil_append, Option.elim_some, Graph.visits_eq] at hrests
      exact absurd rfl (hrest' (.enter child.label (depth + 1)) (by simp [← hrests]))
    | some owned =>
      obtain ⟨rfl, hbehind⟩ := hchild child rfl (depth + 1) owned rest rest' hrests
      exact ⟨rfl, hbehind⟩

theorem Node.flatMap_visits_append_inj {nodes others : List Node}
    (hnodes : ∀ node ∈ nodes, ∀ child ∈ node.child, child.IsReadOnce)
    (hrest : ∀ visit ∈ rest.head?, visit.isBehindNodes)
    (hrest' : ∀ visit ∈ rest'.head?, visit.isBehindNodes)
    (h : nodes.flatMap (Node.visits depth) ++ rest = others.flatMap (Node.visits depth) ++ rest') :
    nodes = others ∧ rest = rest' := by
  induction nodes generalizing others with
  | nil =>
    cases others with
    | nil => exact ⟨rfl, h⟩
    | cons other others =>
      rw [List.flatMap_nil, List.nil_append, List.flatMap_cons, Node.visits_eq] at h
      cases hrest (.node other.id other.label other.properties depth) (by rw [h]; rfl)
  | cons node nodes ih =>
    cases others with
    | nil =>
      rw [List.flatMap_nil, List.nil_append, List.flatMap_cons, Node.visits_eq] at h
      cases hrest' (.node node.id node.label node.properties depth) (by rw [← h]; rfl)
    | cons other others =>
      rw [List.flatMap_cons, List.flatMap_cons, List.append_assoc, List.append_assoc] at h
      obtain ⟨rfl, hlater⟩ := Node.visits_append_inj (hnodes node List.mem_cons_self)
        (not_isEnter_flatMap_visits nodes hrest) (not_isEnter_flatMap_visits others hrest') h
      obtain ⟨rfl, hrests⟩ :=
        ih (fun later hlater => hnodes later (List.mem_cons_of_mem _ hlater)) hlater
      exact ⟨rfl, hrests⟩

theorem map_edge_append_inj {edges others : List GraphEdge} {label label' : String}
    (h : edges.map (Visit.edge · depth) ++ .leave label depth :: rest
      = others.map (Visit.edge · depth) ++ .leave label' depth :: rest') :
    edges = others ∧ label = label' ∧ rest = rest' := by
  induction edges generalizing others with
  | nil =>
    cases others with
    | nil => simpa using h
    | cons => simp at h
  | cons edge edges ih =>
    cases others with
    | nil => simp at h
    | cons other others =>
      simp only [List.map_cons, List.cons_append, List.cons.injEq, Visit.edge.injEq] at h
      obtain ⟨⟨rfl, -⟩, hlater⟩ := h
      obtain ⟨rfl, hends⟩ := ih hlater
      exact ⟨rfl, hends⟩

/-- **A walk can be read in one way only.** -/
theorem Graph.isReadOnce (graph : Graph) : graph.IsReadOnce := by
  induction graph using Graph.nested_induction with
  | step graph ih =>
    intro depth other rest rest' h
    simp only [Graph.visits_eq, List.cons_append, List.append_assoc, List.cons.injEq,
      Visit.enter.injEq, List.nil_append] at h
    obtain ⟨-, hinside⟩ := h
    have hbehind : ∀ (graph : Graph) (rest : List Visit),
        ∀ visit ∈ (graph.edges.map (Visit.edge · depth) ++ .leave graph.label depth :: rest).head?,
          visit.isBehindNodes := by
      intro graph rest visit hvisit
      cases hedges : graph.edges with
      | nil | cons =>
        rw [hedges] at hvisit
        obtain rfl := Option.some.inj hvisit
        rfl
    obtain ⟨hnodes, hbehindNodes⟩ :=
      Node.flatMap_visits_append_inj ih (hbehind graph rest) (hbehind other rest') hinside
    obtain ⟨hedges, hlabel, hrests⟩ := map_edge_append_inj hbehindNodes
    obtain ⟨label, nodes, edges⟩ := graph
    obtain ⟨label', nodes', edges'⟩ := other
    obtain rfl : label = label' := hlabel
    obtain rfl : nodes = nodes' := hnodes
    obtain rfl : edges = edges' := hedges
    exact ⟨rfl, hrests⟩

/-- **The walk through a graph is a faithful account of it.** -/
theorem Graph.walk_is_faithful (graph : Graph) :
    Visit.followAll [] (graph.visits 0) = some []
      ∧ (∃ stops : List Stop, stops.Nodup
        ∧ (∀ stop, stop ∈ stops ↔ (graph.visitAt? 0 stop).isSome)
        ∧ (graph.visits 0).map some = stops.map (graph.visitAt? 0))
      ∧ ∀ other : Graph, graph.visits 0 = other.visits 0 ↔ graph = other := by
  refine ⟨graph.followAll_visits [], ⟨graph.stops, graph.nodup_stops, graph.mem_stops_iff 0,
    graph.map_visits 0⟩, fun other => ⟨fun h => ?_, fun h => h ▸ rfl⟩⟩
  exact (graph.isReadOnce 0 other [] [] (congrArg (· ++ []) h)).1

end CallTrace
