import CallTrace.Log.Encoder
import CallTrace.Log.Source

/-!
# Reading a log

A decoder reads one frame after the other. Text frames fill its string table and are silent unless
they are bad; a record frame is resolved against the table as it stands. A frame is consumed whole
before its content is judged, so that after a bad text or an unknown number reading goes on at the
next frame.

Every frame takes at least one byte from the source, which bounds the run of text frames before a
record.
-/

namespace CallTrace.Log

/-- A reader of records: its input and the texts announced so far. -/
structure Decoder where
  source : Source
  table : StringTable := {}

namespace Decoder

/-- A decoder at the start of its input. -/
def ofSource (source : Source) : Decoder := { source }

/-- Reads exactly so many bytes. -/
def payload (decoder : Decoder) (size : Nat) : Except Fault Bytes × Decoder :=
  match decoder.source.fill size with
  | (.error message, source) => (.error (.io message), { decoder with source })
  | (.ok bytes, source) =>
    if bytes.length < size then
      (.error (.underflow size bytes.length), { decoder with source })
    else (.ok bytes, { decoder with source })

/-- Binds an announced text to its number. -/
def bind (decoder : Decoder) (id : Int32) (bytes : Bytes) : Except Fault Unit × Decoder :=
  if id < 0 then (.error (.invalidStringId id), decoder)
  else
    match Bytes.toText? bytes with
    | none => (.error (.invalidText id), decoder)
    | some text =>
      let (bound, table) := decoder.table.register id text
      if bound then (.ok (), { decoder with table })
      else (.error (.conflictingString id), { decoder with table })

/-- The number and the length that a text frame starts with. -/
def textHeader : Layout.FieldReader (Int32 × Nat) := do
  let id ← Layout.int32
  let length ← Layout.field 4 Bytes.takeWord32
  return (id, length.toNat)

/-- Reads the rest of a text frame. -/
def text (decoder : Decoder) : Except Fault Unit × Decoder :=
  match decoder.payload 8 with
  | (.error fault, decoder) => (.error fault, decoder)
  | (.ok header, decoder) =>
    match textHeader.run' header with
    | .error fault => (.error fault, decoder)
    | .ok (id, length) =>
      if maxTextLength < length then (.error (.stringTooLong id length), decoder)
      else
        match decoder.payload length with
        | (.error fault, decoder) => (.error fault, decoder)
        | (.ok bytes, decoder) => decoder.bind id bytes

/-- Reads the rest of an execution frame. -/
def execution (decoder : Decoder) : Except Fault Execution × Decoder :=
  match decoder.payload Layout.executionSize with
  | (.error fault, decoder) => (.error fault, decoder)
  | (.ok bytes, decoder) => (Layout.readExecution decoder.table bytes, decoder)

/-- Reads the rest of a branching frame. -/
def branching (decoder : Decoder) : Except Fault Branching × Decoder :=
  match decoder.payload Layout.branchingSize with
  | (.error fault, decoder) => (.error fault, decoder)
  | (.ok bytes, decoder) => (Layout.readBranching bytes, decoder)

/-! ## How far the input is read -/

theorem length_rest_payload_le (decoder : Decoder) (size : Nat) :
    (decoder.payload size).2.source.rest.length ≤ decoder.source.rest.length := by
  have h := Source.length_rest_fill_le decoder.source size
  unfold payload
  split
  · next hfill => simpa [hfill] using h
  · next hfill =>
    rw [hfill] at h
    split <;> simpa using h

@[simp]
theorem source_bind (decoder : Decoder) (id : Int32) (bytes : Bytes) :
    (decoder.bind id bytes).2.source = decoder.source := by
  unfold bind
  split
  · rfl
  · split
    · rfl
    · dsimp only
      split <;> rfl

theorem length_rest_text_le (decoder : Decoder) :
    decoder.text.2.source.rest.length ≤ decoder.source.rest.length := by
  have hheader := length_rest_payload_le decoder 8
  unfold text
  split
  · next h => simpa [h] using hheader
  · next header next h =>
    rw [h] at hheader
    split
    · exact hheader
    · split
      · exact hheader
      · next id length _ _ =>
        have hbytes := length_rest_payload_le next length
        split
        · next h => rw [h] at hbytes; exact Nat.le_trans hbytes hheader
        · next h =>
          rw [h] at hbytes
          rw [source_bind]
          exact Nat.le_trans hbytes hheader

/-- Reads the next record; `none` is a clean end of the log. -/
def next (decoder : Decoder) : Except Fault (Option Record) × Decoder :=
  match _hfill : decoder.source.fill 1 with
  | (.error message, source) => (.error (.io message), { decoder with source })
  | (.ok [], source) => (.ok none, { decoder with source })
  | (.ok (tag :: _), source) =>
    if tag = textTag then
      match _htext : text { decoder with source } with
      | (.ok (), after) => after.next
      | (.error fault, after) => (.error fault, after)
    else if tag = executionTag then
      let (result, decoder) := execution { decoder with source }
      (result.map fun e => some (.execution e), decoder)
    else if tag = branchingTag then
      let (result, decoder) := branching { decoder with source }
      (result.map fun b => some (.branching b), decoder)
    else (.error (.unknownTag tag), { decoder with source })
termination_by decoder.source.rest.length
decreasing_by
  have h := length_rest_text_le { decoder with source }
  rw [_htext] at h
  have hrest := Source.rest_of_fill_ok _hfill
  rw [hrest]
  simp only [List.length_append, List.length_cons]
  simp only at h
  omega

end Decoder

end CallTrace.Log
