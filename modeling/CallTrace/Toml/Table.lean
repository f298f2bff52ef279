import CallTrace.Data

/-!
# Tables in TOML

A document builds a tree of tables line by line. How a table came about decides what may still be
added to it: a table that a header names is complete once the next header comes; a table that a
header only passes through may still get a header of its own; a table that a dotted key opened may
only be extended by dotted keys next to it.
-/

namespace CallTrace.Toml

/-- How a table came about. -/
inductive Origin where
  /-- It has a header, or is the whole document, or stands in braces. -/
  | header
  /-- It lies on the way to a table with a header. -/
  | passed
  /-- A dotted key leads through it. -/
  | dotted
  deriving DecidableEq, Repr

/-- What a key of a table stands for. -/
inductive Item where
  | value (data : Data)
  | table (origin : Origin) (members : List (String × Item))
  /-- A list of tables, each with a header of its own. -/
  | tables (elements : List (List (String × Item)))

/-- The keys of a table and what they stand for. -/
abbrev Members := List (String × Item)

namespace Members

/-- Gives a key another meaning. -/
def set (members : Members) (key : String) (item : Item) : Members :=
  members.filter (·.1 ≠ key) ++ [(key, item)]

/-- Changes the table at the end of a path, opening the tables that are missing on the way. A list
of tables stands for its last element. Nothing leads through a value, and no dotted key through a
table with a header. -/
def descend? (isDotted : Bool) (f : Origin → Members → Option Members) :
    List String → Origin → Members → Option Members
  | [], origin, members => f origin members
  | key :: path, _, members => do
    let item ← match members.lookup key with
      | none =>
        let origin := if isDotted then .dotted else .passed
        (descend? isDotted f path origin []).map (.table origin)
      | some (.table origin inner) =>
        if isDotted && origin = .header then none
        else (descend? isDotted f path origin inner).map (.table origin)
      | some (.tables elements) => do
        let last ← elements.getLast?
        let last ← descend? isDotted f path .header last
        pure (.tables (elements.dropLast ++ [last]))
      | some (.value _) => none
    return set members key item

/-- Opens a table with a header. -/
def openTable? (parents : List String) (key : String) (members : Members) : Option Members :=
  descend? false (fun _ members =>
    match members.lookup key with
    | none => some (members.set key (.table .header []))
    | some (.table .passed inner) => some (members.set key (.table .header inner))
    | _ => none) parents .header members

/-- Adds an element to a list of tables. -/
def openElement? (parents : List String) (key : String) (members : Members) : Option Members :=
  descend? false (fun _ members =>
    match members.lookup key with
    | none => some (members.set key (.tables [[]]))
    | some (.tables elements) => some (members.set key (.tables (elements ++ [[]])))
    | _ => none) parents .header members

/-- Gives a new key a value. The table it goes into was opened by a dotted key exactly if the key is
dotted. -/
def put? (parents : List String) (key : String) (data : Data) (origin : Origin)
    (members : Members) : Option Members :=
  descend? true (fun origin members =>
    if (origin = .dotted) = parents.isEmpty || (members.lookup key).isSome then none
    else some (members.set key (.value data))) parents origin members

end Members

mutual

/-- The data of an item. -/
def Item.toData : Item → Data
  | .value data => data
  | .table _ members => .object (Members.toFields members)
  | .tables elements => .array (Members.toObjects elements)

/-- The members of a table as members of an object. -/
def Members.toFields : List (String × Item) → List (String × Data)
  | [] => []
  | (key, item) :: members => (key, item.toData) :: Members.toFields members

/-- A list of tables as objects. -/
def Members.toObjects : List (List (String × Item)) → List Data
  | [] => []
  | members :: elements => .object (Members.toFields members) :: Members.toObjects elements

end

end CallTrace.Toml
