import CallTrace.Error
import CallTrace.Log.Encoder

/-!
# Writers

A writer is where a controller hands the records it accepts: into memory, into a log, or through a
queue to an analysis. Every write may fail.
-/

namespace CallTrace.Monitoring

/-- Where accepted records go. -/
class RecordWriter (ω : Type) where
  /-- The name of the kind of writer. -/
  name : ω → String
  /-- Stores or passes on a record. -/
  write : ω → Record → Except Error Unit × ω
  /-- Gives up what the writer holds; no record is written afterwards. -/
  terminate : ω → ω := id
  /-- One line about the writer. -/
  info : ω → String := name

/-- Two kinds of writers make one. -/
instance {α β : Type} [RecordWriter α] [RecordWriter β] : RecordWriter (α ⊕ β) where
  name writer := writer.elim RecordWriter.name RecordWriter.name
  write
    | .inl writer, record =>
      let (result, writer) := RecordWriter.write writer record
      (result, .inl writer)
    | .inr writer, record =>
      let (result, writer) := RecordWriter.write writer record
      (result, .inr writer)
  terminate writer := writer.map RecordWriter.terminate RecordWriter.terminate
  info writer := writer.elim RecordWriter.info RecordWriter.info

/-- The line about a writer that counts its records. -/
def countInfo (name : String) (count : Nat) : String := s!"{name} ({count} records)"

/-- Keeps all records. -/
structure MemoryWriter where
  records : Array Record := #[]
  deriving DecidableEq, Repr

instance : RecordWriter MemoryWriter where
  name _ := "MemoryWriter"
  write writer record := (.ok (), { records := writer.records.push record })
  info writer := countInfo "MemoryWriter" writer.records.size

/-- Writes records to a log. -/
structure LogWriter where
  encoder : Log.Encoder := {}

instance : RecordWriter LogWriter where
  name _ := "BinaryLogWriter"
  write writer record :=
    let (result, encoder) := writer.encoder.write record
    (result.mapError .log, { encoder })
  info writer := countInfo "BinaryLogWriter" writer.encoder.written.toNat

/-- Sends records through a queue that always has room. -/
structure ChannelWriter where
  /-- What was sent and not yet received, oldest first. -/
  waiting : Array Record := #[]
  /-- Whether somebody can still receive. -/
  hasReceiver : Bool := true
  isTerminated : Bool := false
  deriving DecidableEq, Repr

instance : RecordWriter ChannelWriter where
  name _ := "ChannelWriter"
  write writer record :=
    if writer.isTerminated then (.error (.channel "Writer terminated"), writer)
    else if writer.hasReceiver then
      (.ok (), { writer with waiting := writer.waiting.push record })
    else (.error (.channel "Receiver disconnected"), writer)
  terminate writer := { writer with isTerminated := true }

/-- The writers at hand. -/
abbrev StandardWriter := MemoryWriter ⊕ LogWriter ⊕ ChannelWriter

end CallTrace.Monitoring
