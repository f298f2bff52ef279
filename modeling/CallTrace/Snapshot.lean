import CallTrace.Model

/-!
# Snapshots

The contents of the models at one point in time, as lists in the order of their keys.
-/

namespace CallTrace

open Model

/-- An entity with its provenance. -/
structure SourceEntry where
  entity : Entity
  provenance : Provenance

/-- What the models hold. -/
structure Snapshot where
  components : List ComponentType
  invocations : List Invocation
  operationDataflows : List OperationDataflow
  storageDataflows : List StorageDataflow
  sources : List SourceEntry

namespace Model.Models

/-- What the models hold now. -/
def snapshot (models : Models) : Snapshot where
  components := models.types.components.toList.map (·.2)
  invocations := models.execution.allInvocations
  operationDataflows := models.execution.operationDataflows.toList.map (·.2)
  storageDataflows := models.execution.storageDataflows.toList.map (·.2)
  sources := models.sources.entries.toList.map fun entry => ⟨entry.1, entry.2⟩

end Model.Models

end CallTrace
