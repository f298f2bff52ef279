import CallTrace.Data
import CallTrace.Json.Printer
import CallTrace.Snapshot

/-!
# Snapshots as structured data

Each part of a snapshot as structured data, and how it is read back. An entity says in its member
`kind` what it is; the provenance of an entity stands beside it in the same object.
-/

namespace CallTrace

namespace Model

namespace OperationRef

/-- An identity as structured data. -/
def toData (ref : OperationRef) : Data :=
  .object [("component", .text ref.component), ("operation", .text ref.operation)]

/-- Reads an identity. -/
def ofData? (data : Data) : Option OperationRef := do
  let fields ← data.fields? false ["component", "operation"]
  return {
    component := ← fields.read? "component" Data.text?
    operation := ← fields.read? "operation" Data.text? }

end OperationRef

namespace StorageRef

/-- The identity of a storage as structured data. -/
def toData (storage : StorageRef) : Data := .object [("name", .text storage.name)]

/-- Reads the identity of a storage. -/
def ofData? (data : Data) : Option StorageRef := do
  let fields ← data.fields? false ["name"]
  return { name := ← fields.read? "name" Data.text? }

end StorageRef

/-! ## Types -/

namespace OperationType

/-- An operation as structured data. -/
def toData (operation : OperationType) : Data :=
  .object [
    ("signature", .text operation.signature),
    ("name", .text operation.name),
    ("return_type", .ofText? operation.returnType),
    ("parameter_types", .array (operation.parameterTypes.map .text))]

/-- Reads an operation. -/
def ofData? (data : Data) : Option OperationType := do
  let fields ← data.fields? false ["signature", "name", "return_type", "parameter_types"]
  return {
    signature := ← fields.read? "signature" Data.text?
    name := ← fields.read? "name" Data.text?
    returnType := ← fields.readOptional? "return_type" Data.text?
    parameterTypes := ← fields.read? "parameter_types" (Data.list? Data.text?) }

end OperationType

namespace ComponentType

/-- A component as structured data. -/
def toData (component : ComponentType) : Data :=
  .object [
    ("signature", .text component.signature),
    ("name", .text component.name),
    ("package", .ofText? component.package),
    ("operations",
      .object (component.operations.toList.map fun entry => (entry.1, entry.2.toData)))]

/-- Reads operations by their signatures; of a repeated signature the last one stands. -/
def operationsOfData? (data : Data) : Option (Std.ExtTreeMap String OperationType) := do
  (← data.object?).foldlM
    (fun operations member => do
      return operations.insert member.1 (← OperationType.ofData? member.2)) ∅

/-- Reads a component. -/
def ofData? (data : Data) : Option ComponentType := do
  let fields ← data.fields? false ["signature", "name", "package", "operations"]
  return {
    signature := ← fields.read? "signature" Data.text?
    name := ← fields.read? "name" Data.text?
    package := ← fields.readOptional? "package" Data.text?
    operations := ← fields.read? "operations" operationsOfData? }

end ComponentType

/-! ## Edges -/

namespace Statistics

/-- Statistics as structured data. -/
def toData (s : Statistics) : Data :=
  .object [
    ("count", .ofWord64 s.count),
    ("timed_count", .ofWord64 s.timedCount),
    ("total_duration_nanos", .ofInt64 s.total),
    ("min_duration_nanos", .ofInt? s.min),
    ("max_duration_nanos", .ofInt? s.max)]

/-- Reads statistics. Without a count of timed occurrences there were none. -/
def ofData? (data : Data) : Option Statistics := do
  let fields ← data.fields? false
    ["count", "timed_count", "total_duration_nanos", "min_duration_nanos", "max_duration_nanos"]
  return {
    count := ← fields.read? "count" Data.word64?
    timedCount := ← fields.readD? "timed_count" Data.word64? 0
    total := ← fields.read? "total_duration_nanos" Data.int64?
    min := ← fields.readOptional? "min_duration_nanos" Data.int64?
    max := ← fields.readOptional? "max_duration_nanos" Data.int64? }

end Statistics

namespace Invocation

/-- An invocation as structured data. -/
def toData (invocation : Invocation) : Data :=
  .object [
    ("caller", invocation.caller.toData),
    ("callee", invocation.callee.toData),
    ("statistics", invocation.statistics.toData)]

/-- Reads an invocation. -/
def ofData? (data : Data) : Option Invocation := do
  let fields ← data.fields? false ["caller", "callee", "statistics"]
  return {
    caller := ← fields.read? "caller" OperationRef.ofData?
    callee := ← fields.read? "callee" OperationRef.ofData?
    statistics := ← fields.read? "statistics" Statistics.ofData? }

end Invocation

end Model

namespace Direction

/-- The name of a direction. -/
def name : Direction → String
  | read => "Read"
  | write => "Write"
  | both => "Both"

/-- The direction with a name. -/
def ofName? : String → Option Direction
  | "Read" => some read
  | "Write" => some write
  | "Both" => some both
  | _ => none

/-- A direction as structured data. -/
def toData (direction : Direction) : Data := .text direction.name

/-- Reads a direction; its name may also be the only key of an object that says nothing else. -/
def ofData? : Data → Option Direction
  | .text name => ofName? name
  | .object [(name, .null)] => ofName? name
  | _ => none

end Direction

namespace Model

namespace OperationDataflow

/-- A dataflow between operations as structured data. -/
def toData (flow : OperationDataflow) : Data :=
  .object [
    ("source", flow.source.toData),
    ("target", flow.target.toData),
    ("direction", flow.direction.toData),
    ("statistics", flow.statistics.toData)]

/-- Reads a dataflow between operations. -/
def ofData? (data : Data) : Option OperationDataflow := do
  let fields ← data.fields? false ["source", "target", "direction", "statistics"]
  return {
    source := ← fields.read? "source" OperationRef.ofData?
    target := ← fields.read? "target" OperationRef.ofData?
    direction := ← fields.read? "direction" Direction.ofData?
    statistics := ← fields.read? "statistics" Statistics.ofData? }

end OperationDataflow

namespace StorageDataflow

/-- A dataflow to or from a storage as structured data. -/
def toData (flow : StorageDataflow) : Data :=
  .object [
    ("source", flow.source.toData),
    ("storage", flow.storage.toData),
    ("direction", flow.direction.toData),
    ("statistics", flow.statistics.toData)]

/-- Reads a dataflow to or from a storage. -/
def ofData? (data : Data) : Option StorageDataflow := do
  let fields ← data.fields? false ["source", "storage", "direction", "statistics"]
  return {
    source := ← fields.read? "source" OperationRef.ofData?
    storage := ← fields.read? "storage" StorageRef.ofData?
    direction := ← fields.read? "direction" Direction.ofData?
    statistics := ← fields.read? "statistics" Statistics.ofData? }

end StorageDataflow

/-! ## Provenance -/

namespace Entity

/-- An entity as structured data. -/
def toData : Entity → Data
  | component signature => .object [("kind", .text "component"), ("signature", .text signature)]
  | operation ref => .object [("kind", .text "operation"), ("operation", ref.toData)]
  | invocation caller callee =>
    .object [("kind", .text "invocation"), ("caller", caller.toData), ("callee", callee.toData)]
  | operationDataflow source target =>
    .object [
      ("kind", .text "operation_dataflow"), ("source", source.toData), ("target", target.toData)]
  | storageDataflow source storage =>
    .object [
      ("kind", .text "storage_dataflow"), ("source", source.toData), ("storage", storage.toData)]

/-- Splits off the member `kind`, or the first item of an array, which stands for it. -/
def splitKind? : Data → Option (String × Data)
  | .object members =>
    match members.partition (·.1 = "kind") with
    | ([(_, .text kind)], others) => some (kind, .object others)
    | _ => none
  | .array (.text kind :: items) => some (kind, .array items)
  | _ => none

/-- Reads an entity. -/
def ofData? (data : Data) : Option Entity := do
  let (kind, data) ← splitKind? data
  match kind with
  | "component" =>
    let fields ← data.fields? false ["signature"]
    return .component (← fields.read? "signature" Data.text?)
  | "operation" =>
    let fields ← data.fields? false ["operation"]
    return .operation (← fields.read? "operation" OperationRef.ofData?)
  | "invocation" =>
    let fields ← data.fields? false ["caller", "callee"]
    return .invocation
      (← fields.read? "caller" OperationRef.ofData?) (← fields.read? "callee" OperationRef.ofData?)
  | "operation_dataflow" =>
    let fields ← data.fields? false ["source", "target"]
    return .operationDataflow
      (← fields.read? "source" OperationRef.ofData?) (← fields.read? "target" OperationRef.ofData?)
  | "storage_dataflow" =>
    let fields ← data.fields? false ["source", "storage"]
    return .storageDataflow
      (← fields.read? "source" OperationRef.ofData?) (← fields.read? "storage" StorageRef.ofData?)
  | _ => none

end Entity

end Model

open Model

namespace SourceEntry

/-- How deep the members of an entry may nest. An entry is read whole before it is interpreted, and
a document of at most 127 levels holds it at the third. -/
def maxDepth : Nat := 124

/-- An entity and its provenance as structured data. -/
def toData (entry : SourceEntry) : Data :=
  .object [
    ("entity", entry.entity.toData),
    ("sources", .array (entry.provenance.sources.toList.map .text)),
    ("first_seen", .text entry.provenance.firstSeen.toText)]

/-- Reads an entity and its provenance. -/
def ofData? (data : Data) : Option SourceEntry := do
  let members ← data.object?
  if !members.all fun member => member.2.isUsable maxDepth then none
  let fields ← (Data.object members).fields? false ["entity", "sources", "first_seen"]
  return {
    entity := ← fields.read? "entity" Entity.ofData?
    provenance := {
      sources := .ofList (← fields.read? "sources" (Data.list? Data.text?)) compare
      firstSeen := ← fields.read? "first_seen" fun data => data.text?.bind Instant.ofText? } }

end SourceEntry

namespace Snapshot

/-- A snapshot as structured data. -/
def toData (snapshot : Snapshot) : Data :=
  .object [
    ("components", .array (snapshot.components.map (·.toData))),
    ("invocations", .array (snapshot.invocations.map (·.toData))),
    ("operation_dataflows", .array (snapshot.operationDataflows.map (·.toData))),
    ("storage_dataflows", .array (snapshot.storageDataflows.map (·.toData))),
    ("sources", .array (snapshot.sources.map (·.toData)))]

/-- Reads a snapshot. -/
def ofData? (data : Data) : Option Snapshot := do
  let fields ← data.fields? false
    ["components", "invocations", "operation_dataflows", "storage_dataflows", "sources"]
  return {
    components := ← fields.read? "components" (Data.list? ComponentType.ofData?)
    invocations := ← fields.read? "invocations" (Data.list? Invocation.ofData?)
    operationDataflows :=
      ← fields.read? "operation_dataflows" (Data.list? OperationDataflow.ofData?)
    storageDataflows := ← fields.read? "storage_dataflows" (Data.list? StorageDataflow.ofData?)
    sources := ← fields.read? "sources" (Data.list? SourceEntry.ofData?) }

/-- The document of a snapshot. -/
def toJson (snapshot : Snapshot) : String := Json.render .indented snapshot.toData

end Snapshot

end CallTrace
