import CallTrace.Bytes
import CallTrace.Log.Error
import CallTrace.Record
import CallTrace.StringTable

/-!
# Fixed layouts

Every kind of record has a layout of fixed size. Numbers are written with the most significant byte
first and in two's complement; a text is written as its number in a string table.

| record | fields | bytes |
|---|---|---|
| execution | component, operation, session, trace id, entry, exit, host, `eoi`, `ess` | 48 |
| branching | time, branch, outcome | 16 |

Writing goes field by field into a buffer that may be longer than the layout; what lies behind the
layout stays as it was. Reading goes field by field from the front and stops at the first fault.
-/

namespace CallTrace.Log.Layout

/-- The size of an execution. -/
def executionSize : Nat := 48

/-- The size of a branching decision. -/
def branchingSize : Nat := 16

/-! ## Writing -/

/-- Writes fields over the front of a buffer, up to the first field that has no bytes. -/
def overlay : List (Except Fault Bytes) → Bytes → Except Fault Unit × Bytes
  | [], buffer => (.ok (), buffer)
  | .error fault :: _, buffer => (.error fault, buffer)
  | .ok field :: fields, buffer =>
    let (result, rest) := overlay fields (buffer.drop field.length)
    (result, field ++ rest)

/-- Writes fields into a buffer, which is left alone when it has fewer than `size` bytes. -/
def write (size : Nat) (fields : List (Except Fault Bytes)) (buffer : Bytes) :
    Except Fault Unit × Bytes :=
  if buffer.length < size then (.error (.overflow size buffer.length), buffer)
  else overlay fields buffer

/-- A text as a field: its number, if the table knows the text. -/
def textField (table : StringTable) (text : String) : Except Fault Bytes :=
  match table.idOf? text with
  | some id => .ok (Bytes.ofInt32 id)
  | none => .error (.unknownString (-1))

/-- The fields of an execution in layout order. -/
def executionFields (table : StringTable) (e : Execution) : List (Except Fault Bytes) :=
  [textField table e.component, textField table e.operation, textField table e.session,
    .ok (Bytes.ofInt64 e.traceId), .ok (Bytes.ofInt64 e.tin), .ok (Bytes.ofInt64 e.tout),
    textField table e.host, .ok (Bytes.ofInt32 e.eoi), .ok (Bytes.ofInt32 e.ess)]

/-- The fields of a branching decision in layout order. -/
def branchingFields (b : Branching) : List (Except Fault Bytes) :=
  [.ok (Bytes.ofInt64 b.timestamp), .ok (Bytes.ofInt32 b.branchId), .ok (Bytes.ofInt32 b.outcome)]

/-- Writes an execution over the front of a buffer. -/
def writeExecution (table : StringTable) (e : Execution) (buffer : Bytes) :
    Except Fault Unit × Bytes :=
  write executionSize (executionFields table e) buffer

/-- Writes a branching decision over the front of a buffer. -/
def writeBranching (b : Branching) (buffer : Bytes) : Except Fault Unit × Bytes :=
  write branchingSize (branchingFields b) buffer

/-! ## Reading -/

/-- A reader of fields: it consumes bytes from the front or stops with a fault. -/
abbrev FieldReader := StateT Bytes (Except Fault)

/-- Reads one field of the given size. -/
def field {α : Type} (size : Nat) (take : Bytes → Option (α × Bytes)) : FieldReader α :=
  fun bytes =>
    match take bytes with
    | some (value, rest) => .ok (value, rest)
    | none => .error (.underflow size bytes.length)

/-- Reads a 32-bit field. -/
def int32 : FieldReader Int32 := field 4 Bytes.takeInt32

/-- Reads a 64-bit field. -/
def int64 : FieldReader Int64 := field 8 Bytes.takeInt64

/-- Reads the number of a text and looks the text up. -/
def text (table : StringTable) : FieldReader String := do
  let id ← int32
  match table.text? id with
  | some text => return text
  | none => throw (.unknownString id)

/-- Reads the fields of an execution. -/
def executionReader (table : StringTable) : FieldReader Execution := do
  let component ← text table
  let operation ← text table
  let session ← text table
  let traceId ← int64
  let tin ← int64
  let tout ← int64
  let host ← text table
  let eoi ← int32
  let ess ← int32
  return { component, operation, session, traceId, tin, tout, host, eoi, ess }

/-- Reads the fields of a branching decision. -/
def branchingReader : FieldReader Branching := do
  let timestamp ← int64
  let branchId ← int32
  let outcome ← int32
  return { timestamp, branchId, outcome }

/-- Reads an execution from the front of the bytes. -/
def readExecution (table : StringTable) (bytes : Bytes) : Except Fault Execution :=
  (executionReader table).run' bytes

/-- Reads a branching decision from the front of the bytes. -/
def readBranching (bytes : Bytes) : Except Fault Branching :=
  branchingReader.run' bytes

end CallTrace.Log.Layout
