import CallTrace.Numeral

/-!
# Faults of a log

Why a record could not be written to a log or read from it. A fault is recoverable when it concerns
one frame that was consumed whole, so that reading can go on with the next one.
-/

namespace CallTrace.Log

/-- What can go wrong between records and bytes. -/
inductive Fault where
  /-- A field or frame needs more bytes than are left. -/
  | underflow (needed available : Nat)
  /-- A layout needs more bytes than the buffer has. -/
  | overflow (needed available : Nat)
  /-- A record refers to a number that no text is bound to. -/
  | unknownString (id : Int32)
  /-- A number is announced with a second text. -/
  | conflictingString (id : Int32)
  /-- An announced text is not UTF-8. -/
  | invalidText (id : Int32)
  /-- A text is longer than a log may carry. -/
  | stringTooLong (id : Int32) (length : Nat)
  /-- A negative number is announced. -/
  | invalidStringId (id : Int32)
  /-- A frame starts with a tag that no frame has. -/
  | unknownTag (tag : UInt8)
  /-- The output or the input itself failed. -/
  | io (message : String)
  /-- There is no number left for a new text. This is no error that a writer answers: the count of
  its texts overflows, and it panics. -/
  | noNumberLeft
  deriving DecidableEq, Repr

namespace Fault

/-- The name of the kind of a fault. -/
def kind : Fault → String
  | underflow .. => "BufferUnderflow"
  | overflow .. => "BufferOverflow"
  | unknownString _ => "UnknownStringId"
  | conflictingString _ => "ConflictingStringId"
  | invalidText _ => "InvalidUtf8"
  | stringTooLong .. => "StringTooLong"
  | invalidStringId _ => "InvalidStringId"
  | unknownTag _ => "UnknownRecordTag"
  | io _ => "Io"
  | noNumberLeft => "panic"

/-- The wording of a fault. -/
def message : Fault → String
  | underflow needed available =>
    s!"Buffer underflow: needed {needed} bytes, {available} available"
  | overflow needed available =>
    s!"Buffer overflow: needed {needed} bytes, {available} available"
  | unknownString id => s!"Unknown string id {id}"
  | conflictingString id => s!"String registry entry {id} conflicts with an earlier entry"
  | invalidText id => s!"Invalid UTF-8 in string registry entry {id}"
  | stringTooLong id length =>
    s!"String registry entry {id} announces {length} bytes, over the string length limit"
  | invalidStringId id => s!"Invalid string id {id}"
  | unknownTag tag => "Unknown record tag 0x" ++ Numeral.upperHex 2 tag.toNat
  | io text => "IO error: " ++ text
  | noNumberLeft => "attempt to add with overflow"

/-- Whether the fault leaves the reader at the start of the next frame. -/
def isRecoverable : Fault → Bool
  | unknownString _ | conflictingString _ | invalidStringId _ | invalidText _ => true
  | _ => false

end Fault

end CallTrace.Log
