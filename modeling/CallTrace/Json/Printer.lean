import CallTrace.Data
import CallTrace.Numeral.Shortest

/-!
# Writing JSON

On one line, or with each item and member on a line of its own, indented by two blanks a level.
-/

namespace CallTrace.Json

/-- How a document is laid out. -/
inductive Layout where
  | oneLine
  | indented

namespace Layout

/-- What starts an item at a depth. -/
def lineStart : Layout → Nat → String
  | oneLine, _ => ""
  | indented, depth => "\n" ++ String.ofList (List.replicate (2 * depth) ' ')

/-- What stands between a key and its value. -/
def colon : Layout → String
  | oneLine => ":"
  | indented => ": "

end Layout

/-- A character within quotes. -/
def escape (c : Char) : List Char :=
  match c with
  | '"' => ['\\', '"']
  | '\\' => ['\\', '\\']
  | '\x08' => ['\\', 'b']
  | '\x0c' => ['\\', 'f']
  | '\n' => ['\\', 'n']
  | '\r' => ['\\', 'r']
  | '\t' => ['\\', 't']
  | c =>
    if c.toNat < 0x20 then '\\' :: 'u' :: (Numeral.lowerHex 4 c.toNat).toList
    else [c]

/-- A text within quotes. -/
def quoted (text : String) : String :=
  String.ofList ('"' :: text.toList.flatMap escape ++ ['"'])

mutual

/-- Writes a value that stands at a depth. -/
def renderAt (layout : Layout) (depth : Nat) : Data → String
  | .null | .unusable => "null"
  | .bool value => if value then "true" else "false"
  | .int value => toString value
  | .float value => if value.isFinite then Numeral.floatText value else "null"
  | .text value => quoted value
  | .array [] => "[]"
  | .array items =>
    "[" ++ ",".intercalate (renderItems layout (depth + 1) items) ++ layout.lineStart depth ++ "]"
  | .object [] => "\x7b\x7d"
  | .object members =>
    "\x7b" ++ ",".intercalate (renderMembers layout (depth + 1) members)
      ++ layout.lineStart depth ++ "\x7d"

/-- Writes the items of an array. -/
def renderItems (layout : Layout) (depth : Nat) : List Data → List String
  | [] => []
  | item :: items =>
    (layout.lineStart depth ++ renderAt layout depth item) :: renderItems layout depth items

/-- Writes the members of an object. -/
def renderMembers (layout : Layout) (depth : Nat) : List (String × Data) → List String
  | [] => []
  | (key, value) :: members =>
    (layout.lineStart depth ++ quoted key ++ layout.colon ++ renderAt layout depth value)
      :: renderMembers layout depth members

end

/-- Writes a document. -/
def render (layout : Layout) (data : Data) : String := renderAt layout 0 data

end CallTrace.Json
