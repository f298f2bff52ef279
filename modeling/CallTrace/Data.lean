/-!
# Structured data

What documents in the formats of configuration files and snapshots say, and how a structure with
known fields is read from it. A structure is given either by an object, whose members name the
fields, or by an array of the fields in their order.
-/

namespace CallTrace

/-- A structured value. -/
inductive Data where
  | null
  | bool (value : Bool)
  | int (value : Int)
  | float (value : Float)
  | text (value : String)
  | array (items : List Data)
  | object (members : List (String × Data))
  /-- What a document may spell but no reader can take, such as half a surrogate pair or a number
  beyond the floating-point range. It does no harm where nobody looks. -/
  | unusable
  deriving Inhabited

namespace Data

/-- A text, or nothing. -/
def ofText? (value : Option String) : Data := value.elim null text

/-- A number, or nothing. -/
def ofInt? (value : Option Int64) : Data := value.elim null fun n => int n.toInt

/-- A 64-bit number. -/
def ofInt64 (value : Int64) : Data := int value.toInt

/-- A 32-bit number. -/
def ofInt32 (value : Int32) : Data := int value.toInt

/-- An unsigned 64-bit number. -/
def ofWord64 (value : UInt64) : Data := int value.toNat

/-- The truth value, if the data is one. -/
def bool? : Data → Option Bool
  | bool value => some value
  | _ => none

/-- The text, if the data is one. -/
def text? : Data → Option String
  | text value => some value
  | _ => none

/-- The integer, if the data is one. A number with a fraction or an exponent is none. -/
def int? : Data → Option Int
  | int value => some value
  | _ => none

/-- The 32-bit number, if the data is one. -/
def int32? (data : Data) : Option Int32 := do
  let n ← data.int?
  if Int32.minValue.toInt ≤ n ∧ n ≤ Int32.maxValue.toInt then return Int32.ofInt n else none

/-- The 64-bit number, if the data is one. -/
def int64? (data : Data) : Option Int64 := do
  let n ← data.int?
  if Int64.minValue.toInt ≤ n ∧ n ≤ Int64.maxValue.toInt then return Int64.ofInt n else none

/-- The unsigned 64-bit number, if the data is one. -/
def word64? (data : Data) : Option UInt64 := do
  let n ← data.int?
  if 0 ≤ n ∧ n.toNat < UInt64.size then return UInt64.ofNat n.toNat else none

/-- The items, if the data is an array. -/
def array? : Data → Option (List Data)
  | array items => some items
  | _ => none

/-- The members, if the data is an object. -/
def object? : Data → Option (List (String × Data))
  | object members => some members
  | _ => none

/-- What a reader makes of data that may also be absent. -/
def optional? {α : Type} (read : Data → Option α) : Data → Option (Option α)
  | null => some none
  | data => (read data).map some

/-- What a reader makes of every item of an array. -/
def list? {α : Type} (read : Data → Option α) (data : Data) : Option (List α) := do
  (← data.array?).mapM read

/-- Whether the data has no unusable part and nests at most so many arrays and objects. -/
def isUsable : Nat → Data → Bool
  | _, unusable => false
  | 0, array _ | 0, object _ => false
  | depth + 1, array items => items.all (isUsable depth)
  | depth + 1, object members => members.all fun member => isUsable depth member.2
  | _, _ => true

/-! ## Structures -/

/-- The fields of a structure that were given. -/
structure Fields where
  /-- Whether the fields were named, so that an optional one may be left out. -/
  named : Bool
  given : List (String × Data)

namespace Fields

/-- What a reader makes of a field that has to be there. -/
def read? {α : Type} (fields : Fields) (key : String) (read : Data → Option α) : Option α :=
  (fields.given.lookup key).bind read

/-- What a reader makes of a field that may be null and, among named fields, missing. -/
def readOptional? {α : Type} (fields : Fields) (key : String) (read : Data → Option α) :
    Option (Option α) :=
  match fields.given.lookup key with
  | some data => data.optional? read
  | none => if fields.named then some none else none

/-- What a reader makes of a field, and a standard value where the field is missing. -/
def readD? {α : Type} (fields : Fields) (key : String) (read : Data → Option α) (standard : α) :
    Option α :=
  (fields.given.lookup key).elim (some standard) read

end Fields

/-- The members under known keys, unless a key is repeated. -/
def known? (keys : List String) (members : List (String × Data)) :
    Option (List (String × Data)) :=
  let known := members.filter fun member => keys.contains member.1
  if keys.all fun key => (known.filter (·.1 = key)).length ≤ 1 then some known else none

/-- The fields of a structure. Unknown members are passed over and known ones must not be repeated;
an array may have fewer items than there are fields, and more only if `surplus` are allowed. -/
def fields? (surplus : Bool) (keys : List String) : Data → Option Fields
  | object members => do return { named := true, given := ← known? keys members }
  | array items =>
    if surplus || items.length ≤ keys.length then
      some { named := false, given := keys.zip items }
    else none
  | _ => none

end Data

end CallTrace
