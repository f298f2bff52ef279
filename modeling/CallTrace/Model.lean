import CallTrace.Model.Execution
import CallTrace.Model.Provenance
import CallTrace.Model.Types

/-!
# The models of an analysis

The three models that an analysis fills, and the upserts that fill them. An upsert looks its entity
up, adds it at first sight, updates it, and records under which label it did so. Several labels may
contribute to the same models.
-/

namespace CallTrace.Model

/-- The models of one analysis. -/
structure Models where
  types : TypeModel := {}
  execution : ExecutionModel := {}
  sources : SourceModel := {}

namespace Models

instance : Inhabited Models := ⟨{}⟩

/-- Records that a source contributed to an entity. -/
def credit (models : Models) (now : Instant) (label : String) (entity : Entity) : Models :=
  { models with sources := (models.sources.addSource now entity label).2 }

/-- Adds an operation and its component; the flag says whether the operation is new. -/
def addOperation (models : Models) (now : Instant) (label : String) (ref : OperationRef) :
    Bool × Models :=
  let (created, types) := models.types.ensureOperation ref
  let models := { models with types }
  let models := models.credit now label (.component ref.component)
  (created, models.credit now label (.operation ref))

/-- Accounts for a call; the flag says whether the invocation is new. -/
def addCall (models : Models) (now : Instant) (label : String) (caller callee : OperationRef)
    (duration : Option Int64) : Bool × Models :=
  let (created, execution) := models.execution.addCall caller callee duration
  (created, { models with execution }.credit now label (.invocation caller callee))

/-- Accounts for a dataflow between operations; the flag says whether it is new. -/
def addOperationDataflow (models : Models) (now : Instant) (label : String)
    (source target : OperationRef) (direction : Direction) : Bool × Models :=
  let (created, execution) := models.execution.addOperationDataflow source target direction
  (created, { models with execution }.credit now label (.operationDataflow source target))

/-- Accounts for a dataflow to or from a storage; the flag says whether it is new. -/
def addStorageDataflow (models : Models) (now : Instant) (label : String)
    (source : OperationRef) (storage : StorageRef) (direction : Direction) : Bool × Models :=
  let (created, execution) := models.execution.addStorageDataflow source storage direction
  (created, { models with execution }.credit now label (.storageDataflow source storage))

end Models

end CallTrace.Model
