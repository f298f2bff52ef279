import CallTrace.Graph
import CallTrace.Model
import CallTrace.Numeral.Shortest

/-!
# The architecture of a system

The models as a graph: a node for each component, with the calls between components as edges, and
within each component a graph of its operations with the calls between them.

```
architecture
├── A ──calls(3)──► B        components
│   └── [A]                  operations of A
│       ├── A.f()
│       └── A.h()  ◄── A.f() calls within the component
└── B
    └── [B]
        └── B.g()
```
-/

namespace CallTrace.Model

/-- The label of an architecture graph that is not given one. -/
def architectureLabel : String := "architecture"

namespace ComponentType

/-- The node of a component, with a node for each of its operations. -/
def toNode (component : ComponentType) : Node :=
  let operations := component.operations.toList.map fun (_, operation) =>
    Node.ofLabel (OperationRef.shown ⟨component.signature, operation.signature⟩) operation.name
  let node := Node.ofLabel component.signature component.name
  let node := match component.package with
    | some package => node.setProperty "package" package
    | none => node
  { node with child := some { label := component.signature, nodes := operations, edges := [] } }

end ComponentType

/-- Adds the nodes of an operation and of its component where they are missing. -/
def ensureNodes (graph : Graph) (ref : OperationRef) : Graph :=
  let graph :=
    if (graph.findNode? ref.component).isSome then graph
    else graph.addNode (.ofLabel ref.component ref.component)
  graph.modifyNode ref.component fun node =>
    node.ensureChild.modifyChild fun child =>
      if (child.findNode? ref.shown).isSome then child
      else child.addNode (.ofLabel ref.shown ref.operation)

namespace Invocation

/-- The edge of an invocation between operations of one component. -/
def toEdge (invocation : Invocation) : GraphEdge :=
  let source := invocation.caller.shown
  let target := invocation.callee.shown
  let properties := Properties.set "count" (toString invocation.statistics.count) []
  let properties := match invocation.statistics.mean? with
    | some mean => properties.set "mean_duration_nanos" (Numeral.wholeText mean)
    | none => properties
  { id := source ++ "->" ++ target, source, target, label := "calls", properties }

/-- Whether caller and callee belong to one component. -/
def isWithinComponent (invocation : Invocation) : Bool :=
  invocation.caller.component = invocation.callee.component

end Invocation

/-- Adds the edge of an invocation within a component to the graph of that component. -/
def addInnerEdge (graph : Graph) (invocation : Invocation) : Graph :=
  if invocation.isWithinComponent then
    graph.modifyNode invocation.caller.component
      (·.modifyChild (·.addEdge invocation.toEdge))
  else graph

/-- Two components of which one calls the other. -/
structure ComponentPair where
  caller : String
  callee : String
  deriving DecidableEq, Repr

namespace ComponentPair

/-- The texts that identify a pair. -/
def key (pair : ComponentPair) : List String := [pair.caller, pair.callee]

theorem key_injective (a b : ComponentPair) (h : a.key = b.key) : a = b := by
  cases a; cases b; simp_all [key]

instance : Ord ComponentPair := ⟨compareTexts key⟩

instance : Std.TransOrd ComponentPair := inferInstanceAs (Std.TransCmp (compareTexts key))

instance : Std.LawfulEqOrd ComponentPair := lawfulEqCmp_compareTexts key_injective

end ComponentPair

/-- The components of caller and callee. -/
def Invocation.components (invocation : Invocation) : ComponentPair :=
  { caller := invocation.caller.component, callee := invocation.callee.component }

/-- How often and by how many invocations the components of each pair call each other. -/
def componentCalls (invocations : List Invocation) :
    Std.ExtTreeMap ComponentPair (UInt64 × Nat) :=
  invocations.foldl (fun calls invocation =>
    let (count, number) := calls[invocation.components]?.getD (0, 0)
    calls.insert invocation.components (count + invocation.statistics.count, number + 1)) ∅

/-- Adds the edge between two components. -/
def addOuterEdge (graph : Graph) (pair : ComponentPair) (count : UInt64) (invocations : Nat) :
    Graph :=
  graph.addEdge {
    id := pair.caller ++ "->" ++ pair.callee, source := pair.caller, target := pair.callee
    label := "calls"
    properties := [("count", toString count), ("invocations", toString invocations)] }

/-- The graph of the models. Operations that only the execution model knows are added to the ones
of the type model. -/
def architecture (label : String) (types : TypeModel) (execution : ExecutionModel) : Graph :=
  let invocations := execution.allInvocations
  let graph : Graph :=
    { label, nodes := types.components.toList.map fun (_, component) => component.toNode,
      edges := [] }
  let graph := invocations.foldl (fun graph invocation =>
    ensureNodes (ensureNodes graph invocation.caller) invocation.callee) graph
  let graph := invocations.foldl addInnerEdge graph
  (componentCalls invocations).toList.foldl (fun graph (pair, count, number) =>
    addOuterEdge graph pair count number) graph

end CallTrace.Model
