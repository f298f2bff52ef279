/-!
# Hierarchical graphs

A graph has a label, nodes and edges between its nodes. A node may own a graph of its own, which
lets a reader descend from components to the operations in them. Ids are looked up from the front
and need not be unique; keeping them so is up to whoever builds the graph.

A graph is shown as the sequence of visits of a walk through it: each node is followed by the walk
through its own graph, and the edges of a graph come after its nodes.
-/

namespace CallTrace

/-- Named values in ascending order of their names. -/
abbrev Properties := List (String × String)

namespace Properties

/-- Sets a value, in place of the one with the same name if there is one. -/
def set (key value : String) : Properties → Properties
  | [] => [(key, value)]
  | (k, v) :: rest =>
    if key < k then (key, value) :: (k, v) :: rest
    else if key = k then (key, value) :: rest
    else (k, v) :: set key value rest

/-- The value with a name. -/
def get? (properties : Properties) (key : String) : Option String :=
  (properties.find? (·.1 = key)).map (·.2)

end Properties

/-- An edge between two nodes of a graph, given by their ids. -/
structure GraphEdge where
  id : String
  source : String
  target : String
  label : String
  properties : Properties := []
  deriving DecidableEq, Repr, Inhabited

mutual

/-- A graph whose nodes may own graphs. -/
structure Graph where
  label : String
  nodes : List Node
  edges : List GraphEdge

/-- A node and the graph that it owns, if it owns one. -/
structure Node where
  id : String
  label : String
  properties : Properties
  child : Option Graph

end

instance : Inhabited Graph := ⟨{ label := "", nodes := [], edges := [] }⟩

instance : Inhabited Node := ⟨{ id := "", label := "", properties := [], child := none }⟩

namespace Node

/-- A node without properties and without a graph. -/
def ofLabel (id label : String) : Node := { id, label, properties := [], child := none }

/-- Sets a property. -/
def setProperty (node : Node) (key value : String) : Node :=
  { node with properties := node.properties.set key value }

/-- Gives the node an empty graph labelled with its id, unless it owns one already. -/
def ensureChild (node : Node) : Node :=
  match node.child with
  | some _ => node
  | none => { node with child := some { label := node.id, nodes := [], edges := [] } }

/-- Changes the graph that the node owns, if it owns one. -/
def modifyChild (node : Node) (f : Graph → Graph) : Node := { node with child := node.child.map f }

end Node

namespace Graph

/-- A graph without nodes. -/
def empty (label : String) : Graph := { label, nodes := [], edges := [] }

/-- The first node with an id. -/
def findNode? (graph : Graph) (id : String) : Option Node := graph.nodes.find? (·.id = id)

/-- The first edge with an id. -/
def findEdge? (graph : Graph) (id : String) : Option GraphEdge := graph.edges.find? (·.id = id)

/-- Changes the first element that satisfies `p`. -/
def modifyFirst {α : Type} (p : α → Bool) (f : α → α) : List α → List α
  | [] => []
  | a :: rest => if p a then f a :: rest else a :: modifyFirst p f rest

/-- Changes the first node with an id. -/
def modifyNode (graph : Graph) (id : String) (f : Node → Node) : Graph :=
  { graph with nodes := modifyFirst (·.id = id) f graph.nodes }

/-- Changes the first edge with an id. -/
def modifyEdge (graph : Graph) (id : String) (f : GraphEdge → GraphEdge) : Graph :=
  { graph with edges := modifyFirst (·.id = id) f graph.edges }

/-- Appends a node, whether or not its id is in use. -/
def addNode (graph : Graph) (node : Node) : Graph := { graph with nodes := graph.nodes ++ [node] }

/-- Appends an edge if both its ends are nodes of the graph. -/
def addEdge? (graph : Graph) (edge : GraphEdge) : Option Graph :=
  if (graph.findNode? edge.source).isSome && (graph.findNode? edge.target).isSome then
    some { graph with edges := graph.edges ++ [edge] }
  else none

/-- Appends an edge, or leaves the graph as it is when an end is missing. -/
def addEdge (graph : Graph) (edge : GraphEdge) : Graph := (graph.addEdge? edge).getD graph

/-- The edges that leave a node. -/
def outgoing (graph : Graph) (id : String) : List GraphEdge :=
  graph.edges.filter (·.source = id)

/-! ## Descending -/

/-- The graph reached by following nodes into the graphs they own. -/
def descend? (graph : Graph) : List String → Option Graph
  | [] => some graph
  | id :: path => do
    let child ← (← graph.findNode? id).child
    child.descend? path

/-- Changes the graph reached by following nodes into the graphs they own. -/
def modifyAt (graph : Graph) (path : List String) (f : Graph → Graph) : Graph :=
  match path with
  | [] => f graph
  | id :: path => graph.modifyNode id (·.modifyChild (·.modifyAt path f))

end Graph

/-! ## Walking through a graph -/

/-- One step of a walk through a graph; depth counts the graphs around the visited one. -/
inductive Visit where
  | enter (label : String) (depth : Nat)
  | node (id label : String) (properties : Properties) (depth : Nat)
  | edge (edge : GraphEdge) (depth : Nat)
  | leave (label : String) (depth : Nat)
  deriving DecidableEq, Repr

mutual

/-- The walk through a graph. -/
def Graph.visits (depth : Nat) : Graph → List Visit
  | ⟨label, nodes, edges⟩ =>
    .enter label depth :: (Node.visitsAll depth nodes ++ (edges.map (Visit.edge · depth))
      ++ [.leave label depth])

/-- The visits of nodes and of the graphs they own. -/
def Node.visitsAll (depth : Nat) : List Node → List Visit
  | [] => []
  | node :: rest => Node.visits depth node ++ Node.visitsAll depth rest

/-- The visits of a node and of the graph it owns. -/
def Node.visits (depth : Nat) : Node → List Visit
  | ⟨id, label, properties, child⟩ =>
    .node id label properties depth :: Graph.visitsChild (depth + 1) child

/-- The walk through a graph that may not be there. -/
def Graph.visitsChild (depth : Nat) : Option Graph → List Visit
  | none => []
  | some graph => Graph.visits depth graph

end

end CallTrace
