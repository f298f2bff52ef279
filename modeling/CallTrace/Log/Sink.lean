import CallTrace.Bytes
import CallTrace.Log.Error

/-!
# Outputs that may fail

A sink stores what is written to it. Each write has so much room; a write that needs more stores the
part that fits and fails. How much room a write has may depend on how much is stored already and on
how many writes came before, which covers a device that fills up as well as one that fails now and
then.
-/

namespace CallTrace.Log

/-- An output and what it has stored. -/
structure Sink where
  /-- The bytes stored so far. -/
  stored : Bytes := []
  /-- How many writes came before. -/
  writes : Nat := 0
  /-- The room of a write, by bytes stored and by writes made before it; `none` is no limit. -/
  room : Nat → Nat → Option Nat := fun _ _ => none

namespace Sink

/-- A sink that takes everything. -/
def unlimited : Sink := {}

/-- A sink that stores so many bytes in all. -/
def limited (capacity : Nat) : Sink := { room := fun stored _ => some (capacity - stored) }

/-- The wording of a write that did not fit. -/
def fullMessage : String := "failed to write whole buffer"

/-- Writes bytes, or the part of them that fits. -/
def write (sink : Sink) (bytes : Bytes) : Except Fault Unit × Sink :=
  match sink.room sink.stored.length sink.writes with
  | none => (.ok (), { sink with stored := sink.stored ++ bytes, writes := sink.writes + 1 })
  | some room =>
    let result := if bytes.length ≤ room then .ok () else .error (.io fullMessage)
    (result, { sink with stored := sink.stored ++ bytes.take room, writes := sink.writes + 1 })

end Sink

end CallTrace.Log
