import CallTrace.Log.Layout
import CallTrace.Log.Sink

/-!
# Writing a log

A log is a sequence of tagged frames:

| tag | frame | content |
|---|---|---|
| `00` | text | number, length in bytes, UTF-8 |
| `01` | execution | its fixed layout |
| `02` | branching | its fixed layout |

An encoder announces a text in a frame of its own before the first record that refers to it, and
only then. Tag and content, and the four parts of a text frame, are written one after the other; the
first write that fails ends the record.
-/

namespace CallTrace.Log

/-- The tag of a text frame. -/
def textTag : UInt8 := 0

/-- The tag of an execution frame. -/
def executionTag : UInt8 := 1

/-- The tag of a branching frame. -/
def branchingTag : UInt8 := 2

/-- The longest text that a log carries, in bytes. -/
def maxTextLength : Nat := 1048576

/-- A writer of records: the texts it has announced, its output and its count of records. -/
structure Encoder where
  table : StringTable := {}
  sink : Sink := {}
  /-- How many records were written whole. -/
  written : UInt64 := 0

namespace Encoder

/-- A step of writing: it may fail, and keeps the encoder as the failure left it. -/
abbrev Step := ExceptT Fault (StateM Encoder)

/-- Writes bytes to the output. -/
def put (bytes : Bytes) : Step Unit := fun encoder =>
  let (result, sink) := encoder.sink.write bytes
  (result, { encoder with sink })

/-- Gives a text its number, and says whether the text is new. -/
def intern (text : String) : Step (Int32 × Bool) := fun encoder =>
  let (numbered?, table) := encoder.table.intern text
  match numbered? with
  | some numbered => (.ok numbered, { encoder with table })
  | none => (.error .noNumberLeft, { encoder with table })

/-- Announces a text unless it was announced before. -/
def announce (text : String) : Step Unit := do
  let bytes := Bytes.ofText text
  if maxTextLength < bytes.length then
    throw (.stringTooLong (-1) bytes.length)
  let (id, isNew) ← intern text
  if isNew then
    put [textTag]
    put (Bytes.ofInt32 id)
    put (Bytes.ofWord32 (UInt32.ofNat bytes.length))
    put bytes

/-- The texts of an execution in the order in which they are announced. -/
def texts (e : Execution) : List String := [e.component, e.operation, e.session, e.host]

/-- The layout of a record under the texts announced so far. -/
def payload (record : Record) : Step Bytes := fun encoder =>
  let (result, bytes) :=
    match record with
    | .execution e =>
      Layout.writeExecution encoder.table e (List.replicate Layout.executionSize 0)
    | .branching b => Layout.writeBranching b (List.replicate Layout.branchingSize 0)
  (result.map fun _ => bytes, encoder)

/-- The tag of a record's frame. -/
def tag : Record → UInt8
  | .execution _ => executionTag
  | .branching _ => branchingTag

/-- Writes a record, after the texts that it is the first to use. -/
def record (record : Record) : Step Unit := do
  match record with
  | .execution e => (texts e).forM announce
  | .branching _ => pure ()
  let bytes ← payload record
  put [tag record]
  put bytes
  modify fun encoder => { encoder with written := encoder.written + 1 }

/-- Writes a record; the encoder that is left after it is the one to go on with. -/
def write (encoder : Encoder) (r : Record) : Except Fault Unit × Encoder :=
  record r encoder

end Encoder

end CallTrace.Log
