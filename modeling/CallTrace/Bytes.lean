/-!
# Byte strings

Words and texts as bytes. A word is written with its most significant byte first; a text is written
in UTF-8. Each writer has a reader that returns the value together with the bytes that follow it, so
that layouts are read field by field from the front.
-/

namespace CallTrace

/-- A string of bytes. -/
abbrev Bytes := List UInt8

namespace Bytes

/-! ## Words -/

/-- The four bytes of a 32-bit word, most significant first. -/
def ofWord32 (w : UInt32) : Bytes :=
  [UInt8.ofNat (w.toNat / 16777216), UInt8.ofNat (w.toNat / 65536),
    UInt8.ofNat (w.toNat / 256), UInt8.ofNat w.toNat]

/-- The eight bytes of a 64-bit word, most significant first. -/
def ofWord64 (w : UInt64) : Bytes :=
  ofWord32 (UInt32.ofNat (w.toNat / 4294967296)) ++ ofWord32 (UInt32.ofNat w.toNat)

/-- The four bytes of a signed 32-bit integer in two's complement. -/
def ofInt32 (i : Int32) : Bytes := ofWord32 i.toUInt32

/-- The eight bytes of a signed 64-bit integer in two's complement. -/
def ofInt64 (i : Int64) : Bytes := ofWord64 i.toUInt64

/-- Reads a 32-bit word from the front. -/
def takeWord32 : Bytes → Option (UInt32 × Bytes)
  | a :: b :: c :: d :: rest =>
    some (UInt32.ofNat (a.toNat * 16777216 + b.toNat * 65536 + c.toNat * 256 + d.toNat), rest)
  | _ => none

/-- Reads a 64-bit word from the front. -/
def takeWord64 (bytes : Bytes) : Option (UInt64 × Bytes) := do
  let (high, rest) ← takeWord32 bytes
  let (low, rest) ← takeWord32 rest
  return (UInt64.ofNat (high.toNat * 4294967296 + low.toNat), rest)

/-- Reads a signed 32-bit integer from the front. -/
def takeInt32 (bytes : Bytes) : Option (Int32 × Bytes) :=
  (takeWord32 bytes).map fun (w, rest) => (w.toInt32, rest)

/-- Reads a signed 64-bit integer from the front. -/
def takeInt64 (bytes : Bytes) : Option (Int64 × Bytes) :=
  (takeWord64 bytes).map fun (w, rest) => (w.toInt64, rest)

@[simp]
theorem length_ofWord32 (w : UInt32) : (ofWord32 w).length = 4 := rfl

@[simp]
theorem length_ofWord64 (w : UInt64) : (ofWord64 w).length = 8 := rfl

@[simp]
theorem length_ofInt32 (i : Int32) : (ofInt32 i).length = 4 := rfl

@[simp]
theorem length_ofInt64 (i : Int64) : (ofInt64 i).length = 8 := rfl

/-! ## Texts -/

/-- The UTF-8 form of a text. -/
def ofText (text : String) : Bytes := text.toByteArray.data.toList

/-- The text with this UTF-8 form, if the bytes are well-formed UTF-8. -/
def toText? (bytes : Bytes) : Option String := String.fromUTF8? ⟨bytes.toArray⟩

theorem toText?_ofText (text : String) : toText? (ofText text) = some text := by
  simp only [toText?, ofText, Array.toArray_toList, String.fromUTF8?]
  exact dif_pos text.isValidUTF8

end Bytes

end CallTrace
