import CallTrace.Graph
import Mathlib.Data.List.Nodup

/-!
# Graphs whose ids are unique

A graph looks its nodes up from the front. Where no id is used twice, changing the node with an id
changes just that one (`nodes_modifyNode`), and an edge between ids that are used is never left out
(`addEdge_of_mem`).

Edges may be named by their ends, with an arrow between them (`NamesByEnds`). Such a name can be
read in two ways when the names of nodes have arrows in them: two edges share an id exactly if the
one continues the other across the arrow (`arrow_eq_iff`, `nodup_edgeIds_iff`).
-/

namespace CallTrace

/-- Setting a property changes no other one. -/
theorem Properties.get?_set (properties : Properties) (key value other : String) :
    (properties.set key value).get? other
      = if key = other then some value else properties.get? other := by
  induction properties with
  | nil => by_cases h : key = other <;> simp [set, get?, h]
  | cons property properties ih =>
    obtain ⟨known, before⟩ := property
    unfold set
    split
    · by_cases h : key = other <;> simp [get?, h]
    · split
      · next hsame => by_cases h : key = other <;> simp [get?, ← hsame, h]
      · next hdiffers =>
        by_cases h : known = other
        · subst h
          simp [get?, hdiffers]
        · simpa [get?, h] using ih

namespace Graph

variable {graph : Graph} {id : String}

/-- The ids of the nodes. -/
def nodeIds (graph : Graph) : List String := graph.nodes.map (·.id)

theorem isSome_findNode? : (graph.findNode? id).isSome ↔ id ∈ graph.nodeIds := by
  simp [findNode?, nodeIds]

/-! ## Nodes -/

theorem mem_nodeIds_addNode {node : Node} :
    id ∈ (graph.addNode node).nodeIds ↔ id = node.id ∨ id ∈ graph.nodeIds := by
  simp [addNode, nodeIds, or_comm]

theorem nodup_addNode {node : Node} (h : graph.nodeIds.Nodup) (hnew : node.id ∉ graph.nodeIds) :
    (graph.addNode node).nodeIds.Nodup := by
  rw [nodeIds, addNode, List.map_append, List.map_singleton, ← List.concat_eq_append]
  exact h.concat hnew

/-- **Changing the node with an id changes no other node.** -/
theorem nodes_modifyNode (h : graph.nodeIds.Nodup) (id : String) (f : Node → Node) :
    (graph.modifyNode id f).nodes
      = graph.nodes.map fun node => if node.id = id then f node else node := by
  obtain ⟨label, nodes, edges⟩ := graph
  show modifyFirst _ f nodes = _
  have hnodup : (nodes.map (·.id)).Nodup := h
  clear h
  induction nodes with
  | nil => rfl
  | cons node nodes ih =>
    rw [List.map_cons, List.nodup_cons] at hnodup
    obtain ⟨hnot, hrest⟩ := hnodup
    rw [modifyFirst, List.map_cons]
    by_cases hid : node.id = id
    · have hothers : nodes.map (fun node => if node.id = id then f node else node)
          = nodes.map fun node => node := by
        refine List.map_congr_left fun other hother => if_neg fun hsame => hnot ?_
        exact List.mem_map.mpr ⟨other, hother, hsame.trans hid.symm⟩
      simp [hid, hothers]
    · simp [hid, ih hrest]

theorem nodeIds_modifyNode (graph : Graph) (id : String) (f : Node → Node)
    (hf : ∀ node, (f node).id = node.id) : (graph.modifyNode id f).nodeIds = graph.nodeIds := by
  obtain ⟨label, nodes, edges⟩ := graph
  show (modifyFirst _ f nodes).map (·.id) = nodes.map (·.id)
  induction nodes with
  | nil => rfl
  | cons node nodes ih =>
    unfold modifyFirst
    split
    · rw [List.map_cons, List.map_cons, hf]
    · rw [List.map_cons, List.map_cons, ih]

theorem modifyNode_congr {f g : Node → Node}
    (h : ∀ node ∈ graph.nodes, node.id = id → f node = g node) :
    graph.modifyNode id f = graph.modifyNode id g := by
  obtain ⟨label, nodes, edges⟩ := graph
  have hnodes : ∀ node ∈ nodes, node.id = id → f node = g node := h
  refine congrArg (Graph.mk label · edges) ?_
  clear h
  induction nodes with
  | nil => rfl
  | cons node nodes ih =>
    unfold modifyFirst
    split
    · next hid => rw [hnodes node List.mem_cons_self (of_decide_eq_true hid)]
    · rw [ih fun other hother => hnodes other (List.mem_cons_of_mem _ hother)]

/-- A node whose id was not in use is changed in its place. -/
theorem modifyNode_addNode (node : Node) (hnew : node.id ∉ graph.nodeIds) (f : Node → Node) :
    (graph.addNode node).modifyNode node.id f = graph.addNode (f node) := by
  obtain ⟨label, nodes, edges⟩ := graph
  refine congrArg (Graph.mk label · edges) ?_
  replace hnew : node.id ∉ nodes.map (·.id) := hnew
  show modifyFirst _ f (nodes ++ [node]) = nodes ++ [f node]
  induction nodes with
  | nil => simp [modifyFirst]
  | cons other nodes ih =>
    rw [List.map_cons, List.mem_cons, not_or] at hnew
    rw [List.cons_append, modifyFirst, if_neg, ih hnew.2, List.cons_append]
    simpa using Ne.symm hnew.1

/-! ## Edges -/

/-- An edge between nodes of the graph is not left out. -/
theorem addEdge_of_mem {edge : GraphEdge} (hsource : edge.source ∈ graph.nodeIds)
    (htarget : edge.target ∈ graph.nodeIds) :
    graph.addEdge edge = { graph with edges := graph.edges ++ [edge] } := by
  have hs := isSome_findNode?.mpr hsource
  have ht := isSome_findNode?.mpr htarget
  simp [addEdge, addEdge?, hs, ht]

/-- The ids of the edges. -/
def edgeIds (graph : Graph) : List String := graph.edges.map (·.id)

/-- Each edge is the one that is found by its id. -/
def FindsEdges (graph : Graph) : Prop :=
  ∀ edge ∈ graph.edges, graph.findEdge? edge.id = some edge

/-- Where no two edges are the same, each is found by its id exactly if no two share one. -/
theorem findsEdges_iff (h : graph.edges.Nodup) : graph.FindsEdges ↔ graph.edgeIds.Nodup := by
  constructor
  · intro hfound
    refine List.Nodup.map_on (fun edge hedge other hother hid => ?_) h
    have hsame := hfound edge hedge
    rw [hid, hfound other hother] at hsame
    exact (Option.some.inj hsame).symm
  · intro hids edge hedge
    cases hfound : graph.findEdge? edge.id with
    | none => simpa using List.find?_eq_none.mp hfound edge hedge
    | some other =>
      have hid : other.id = edge.id := by simpa using List.find?_some hfound
      exact congrArg some
        (List.inj_on_of_nodup_map hids (List.mem_of_find?_eq_some hfound) hedge hid)

/-! ## Edges named by their ends -/

/-- Across the arrow, the second pair of texts continues the first: its source goes on where the
source of the first ends, and what it has more stands in front of the target of the first. -/
def Continues (source target source' target' : String) : Prop :=
  ∃ between, source' = source ++ "->" ++ between ∧ target = between ++ "->" ++ target'

theorem continues_of_toList {source target source' target' : String} {between : List Char}
    (hsource : source'.toList = source.toList ++ '-' :: '>' :: between)
    (htarget : target.toList = between ++ '-' :: '>' :: target'.toList) :
    Continues source target source' target' := by
  refine ⟨String.ofList between, String.toList_inj.mp ?_, String.toList_inj.mp ?_⟩
  · simpa using hsource
  · simpa using htarget

theorem not_continues_self {source target target' : String} :
    ¬ Continues source target source target' := by
  rintro ⟨between, hsource, -⟩
  have hlength := congrArg String.length hsource
  rw [String.length_append, String.length_append, show "->".length = 2 from rfl] at hlength
  omega

/-- An arrow does not overlap with itself: what follows in front of a second one begins with the
first one, unless the two are the same. -/
theorem chars_arrow {a b d : List Char} (h : '-' :: '>' :: b = a ++ '-' :: '>' :: d) :
    (a = [] ∧ b = d) ∨ ∃ between, a = '-' :: '>' :: between ∧ b = between ++ '-' :: '>' :: d := by
  match a with
  | [] => simpa using h
  | [first] => simp at h
  | first :: second :: between =>
    simp only [List.cons_append, List.cons.injEq] at h
    obtain ⟨rfl, rfl, rfl⟩ := h
    exact .inr ⟨between, rfl, rfl⟩

/-- **Two arrows read alike** if they join the same texts or the one continues the other. -/
theorem arrow_eq_iff {source target source' target' : String} :
    source ++ "->" ++ target = source' ++ "->" ++ target'
      ↔ (source = source' ∧ target = target') ∨ Continues source target source' target'
        ∨ Continues source' target' source target := by
  constructor
  · intro h
    have hchars : source.toList ++ '-' :: '>' :: target.toList
        = source'.toList ++ '-' :: '>' :: target'.toList := by
      simpa using congrArg String.toList h
    rcases List.append_eq_append_iff.mp hchars with ⟨more, hsource, hrest⟩ | ⟨more, hsource, hrest⟩
    · rcases chars_arrow hrest with ⟨rfl, htarget⟩ | ⟨between, rfl, htarget⟩
      · rw [List.append_nil] at hsource
        exact .inl ⟨(String.toList_inj.mp hsource).symm, String.toList_inj.mp htarget⟩
      · exact .inr (.inl (continues_of_toList hsource htarget))
    · rcases chars_arrow hrest with ⟨rfl, htarget⟩ | ⟨between, rfl, htarget⟩
      · rw [List.append_nil] at hsource
        exact .inl ⟨String.toList_inj.mp hsource, (String.toList_inj.mp htarget).symm⟩
      · exact .inr (.inr (continues_of_toList hsource htarget))
  · rintro (⟨rfl, rfl⟩ | ⟨between, rfl, rfl⟩ | ⟨between, rfl, rfl⟩)
    · rfl
    · simp only [String.append_assoc]
    · simp only [String.append_assoc]

/-- Each edge is named by its ends, and no two edges join the same ends in the same direction. -/
structure NamesByEnds (graph : Graph) : Prop where
  id : ∀ edge ∈ graph.edges, edge.id = edge.source ++ "->" ++ edge.target
  nodup : (graph.edges.map fun edge => (edge.source, edge.target)).Nodup

/-- **Edges named by their ends have different ids unless one of them continues another one.** -/
theorem NamesByEnds.nodup_edgeIds_iff (h : graph.NamesByEnds) :
    graph.edgeIds.Nodup ↔ ¬ ∃ first ∈ graph.edges, ∃ second ∈ graph.edges,
      Continues first.source first.target second.source second.target := by
  have hedges : graph.edges.Nodup := .of_map _ h.nodup
  constructor
  · rintro hids ⟨first, hfirst, second, hsecond, hcontinues⟩
    have hid : first.id = second.id := by
      rw [h.id first hfirst, h.id second hsecond]
      exact arrow_eq_iff.mpr (.inr (.inl hcontinues))
    obtain rfl := List.inj_on_of_nodup_map hids hfirst hsecond hid
    exact not_continues_self hcontinues
  · intro hnone
    refine List.Nodup.map_on (fun first hfirst second hsecond hid => ?_) hedges
    rw [h.id first hfirst, h.id second hsecond] at hid
    rcases arrow_eq_iff.mp hid with hends | hcontinues | hcontinues
    · exact List.inj_on_of_nodup_map h.nodup hfirst hsecond (Prod.ext hends.1 hends.2)
    · exact absurd ⟨first, hfirst, second, hsecond, hcontinues⟩ hnone
    · exact absurd ⟨second, hsecond, first, hfirst, hcontinues⟩ hnone

end Graph

end CallTrace
