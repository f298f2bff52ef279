import CallTrace.Data
import CallTrace.Record

/-!
# Records as structured data
-/

namespace CallTrace

namespace Execution

/-- An execution as structured data. -/
def toData (e : Execution) : Data :=
  .object [
    ("component_signature", .text e.component),
    ("operation_signature", .text e.operation),
    ("session_id", .text e.session),
    ("trace_id", .ofInt64 e.traceId),
    ("tin", .ofInt64 e.tin),
    ("tout", .ofInt64 e.tout),
    ("host_name", .text e.host),
    ("eoi", .ofInt32 e.eoi),
    ("ess", .ofInt32 e.ess)]

end Execution

namespace Branching

/-- A branching decision as structured data. -/
def toData (b : Branching) : Data :=
  .object [
    ("timestamp", .ofInt64 b.timestamp),
    ("branch_id", .ofInt32 b.branchId),
    ("branching_outcome", .ofInt32 b.outcome)]

end Branching

namespace Record

/-- A record as structured data: an object whose one key names the kind. -/
def toData : Record → Data
  | execution e => .object [("OperationExecution", e.toData)]
  | branching b => .object [("Branching", b.toData)]

end Record

end CallTrace
