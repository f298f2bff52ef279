import CallTrace.Model.Signature

/-!
# The type model

The components that were observed and the operations that each declares, keyed by signature.
Observing an operation adds what is missing and changes nothing else.
-/

namespace CallTrace.Model

/-- Components by their signatures. -/
structure TypeModel where
  components : Std.ExtTreeMap String ComponentType := ∅

namespace TypeModel

instance : Inhabited TypeModel := ⟨{}⟩

/-- The component with a signature. -/
def component? (model : TypeModel) (signature : String) : Option ComponentType :=
  model.components[signature]?

/-- The operation with an identity. -/
def operation? (model : TypeModel) (ref : OperationRef) : Option OperationType := do
  (← model.component? ref.component).operation? ref.operation

/-- How many components there are. -/
def componentCount (model : TypeModel) : Nat := model.components.size

/-- How many operations the components have together. -/
def operationCount (model : TypeModel) : Nat :=
  model.components.toList.foldl (fun count (_, component) => count + component.operations.size) 0

/-- Adds an operation and its component where they are missing; the flag says whether the operation
was. -/
def ensureOperation (model : TypeModel) (ref : OperationRef) : Bool × TypeModel :=
  let component := (model.component? ref.component).getD (.ofSignature ref.component)
  let (created, component) := component.ensureOperation ref.operation
  (created, { components := model.components.insert ref.component component })

end TypeModel

end CallTrace.Model
