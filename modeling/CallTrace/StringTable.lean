import Std.Data.ExtTreeMap

/-!
# String tables

A log writes each text once and then refers to it by a number. A table knows the number of each text
and the text of each number. A writer numbers its texts densely from zero (`intern`); a reader binds
whatever numbers the log announces (`register`), so its table may have gaps, and one text may be
bound to several numbers. A number is never bound to a second text, and a new text is not numbered
at all when the next number is the greatest one.
-/

namespace CallTrace

/-- Texts and their numbers. -/
structure StringTable where
  /-- The number by which each text was first known. -/
  ids : Std.ExtTreeMap String Int32 := ∅
  /-- The text of each bound number. -/
  texts : Std.ExtTreeMap Int32 String := ∅
  /-- The number that the next new text will get. -/
  nextId : Int32 := 0

namespace StringTable

/-- The table without texts. -/
def empty : StringTable := {}

instance : Inhabited StringTable := ⟨empty⟩

/-- The number of a text. -/
def idOf? (table : StringTable) (text : String) : Option Int32 := table.ids[text]?

/-- The text of a number. -/
def text? (table : StringTable) (id : Int32) : Option String := table.texts[id]?

/-- How many numbers are bound. -/
def size (table : StringTable) : Nat := table.texts.size

/-- Whether no number is bound. -/
def isEmpty (table : StringTable) : Bool := table.texts.isEmpty

/-- The bound numbers in ascending order, with their texts. -/
def entries (table : StringTable) : List (Int32 × String) := table.texts.toList

/-- The number of a text, and whether the text is new. A new text takes the next number. Counting on
from the greatest number overflows, before the text is taken in: there is no answer then, and the
table stays as it was. -/
def intern (table : StringTable) (text : String) : Option (Int32 × Bool) × StringTable :=
  match table.idOf? text with
  | some id => (some (id, false), table)
  | none =>
    let id := table.nextId
    if id = Int32.maxValue then (none, table)
    else
      (some (id, true),
        { ids := table.ids.insert text id, texts := table.texts.insert id text, nextId := id + 1 })

/-- The integer after `id`, or `id` itself where there is none. -/
def successor (id : Int32) : Int32 := if id = Int32.maxValue then id else id + 1

/-- Binds a number to a text, unless the number is negative or is bound to another text already. -/
def register (table : StringTable) (id : Int32) (text : String) : Bool × StringTable :=
  if id < 0 then (false, table)
  else
    match table.text? id with
    | some known => (known == text, table)
    | none =>
      (true,
        { ids := table.ids.insertIfNew text id
          texts := table.texts.insert id text
          nextId := max table.nextId (successor id) })

end StringTable

end CallTrace
