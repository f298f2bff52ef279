import CallTrace.Data
import CallTrace.Toml.Text

/-!
# Writing TOML

A document of settings and of sections of settings: the settings come first, then each section under
its header after a blank line. A setting that is null is left out.

A text is written in the first of these ways that suits it: between double quotes if that needs no
escapes other than tabs, between single quotes, between three double quotes, between three single
quotes, and else between double quotes with escapes. The quotes are threefold where the text has a
line break, which then starts on a line of its own.
-/

namespace CallTrace.Toml

/-- Whether a character can only be written as an escape, wherever it stands. -/
def needsEscape (c : Char) : Bool := !isPlain c && c != '\n'

/-- The length of the longest run of a character. -/
def longestRun (c : Char) (text : List Char) : Nat :=
  let step (runs : Nat × Nat) (d : Char) : Nat × Nat :=
    if d = c then (runs.1 + 1, max runs.2 (runs.1 + 1)) else (0, runs.2)
  (text.foldl step (0, 0)).2

/-- A character other than a quote between double quotes; `breaks` tells whether line breaks stand
as they are. -/
def escapeChar (breaks : Bool) (c : Char) : List Char :=
  match c with
  | '\x08' => ['\\', 'b']
  | '\t' => ['\\', 't']
  | '\n' => if breaks then ['\n'] else ['\\', 'n']
  | '\x0c' => ['\\', 'f']
  | '\r' => ['\\', 'r']
  | '\\' => ['\\', '\\']
  | c => if needsEscape c then '\\' :: 'u' :: (Numeral.upperHex 4 c.toNat).toList else [c]

/-- The characters of a text between double quotes. So many quotes may stand in a row, of which
`row` are written already; the next one is escaped. -/
def escapeText (breaks : Bool) (quotes : Nat) : (row : Nat) → List Char → List Char
  | _, [] => []
  | row, '"' :: rest =>
    if row < quotes then '"' :: escapeText breaks quotes (row + 1) rest
    else '\\' :: '"' :: escapeText breaks quotes 0 rest
  | _, c :: rest => escapeChar breaks c ++ escapeText breaks quotes 0 rest

/-- A text between double quotes. -/
def basicText (text : List Char) : List Char := '"' :: escapeText false 0 0 text ++ ['"']

/-- A text between three quotes; what stands between them is given. -/
def threefold (quote : Char) (text inner : List Char) : List Char :=
  let quotes := List.replicate 3 quote
  quotes ++ (if text.contains '\n' then ['\n'] else []) ++ inner ++ quotes

/-- A text with its quotes. -/
def quotedText (text : List Char) : List Char :=
  let hasEscape := text.any needsEscape
  let hasBackslash := text.contains '\\'
  let hasBreak := text.contains '\n'
  let double := longestRun '"' text
  let single := longestRun '\'' text
  if !hasEscape && !hasBackslash && double = 0 && !hasBreak then basicText text
  else if !hasEscape && single = 0 && !hasBreak then '\'' :: text ++ ['\'']
  else if !hasEscape && !hasBackslash && double ≤ 2 then
    threefold '"' text (escapeText true 2 0 text)
  else if !hasEscape && single ≤ 2 then threefold '\'' text text
  else if hasBreak then threefold '"' text (escapeText true 2 0 text)
  else basicText text

/-- A simple value. Integers have 64 bits. -/
def simpleText? : Data → Option String
  | .bool value => some (if value then "true" else "false")
  | .int value =>
    if Int64.minValue.toInt ≤ value ∧ value ≤ Int64.maxValue.toInt then some (toString value)
    else none
  | .text value => some (String.ofList (quotedText value.toList))
  | _ => none

/-- The lines of settings. -/
def settings? (members : List (String × Data)) : Option String := do
  let lines ← members.mapM fun (key, data) =>
    match data with
    | .null => some ""
    | data => (simpleText? data).map fun text => key ++ " = " ++ text ++ "\n"
  return String.join lines

/-- The header and the lines of a section. -/
def section? (member : String × Data) : Option String :=
  match member with
  | (key, .object members) =>
    (settings? members).map fun lines => "[" ++ key ++ "]\n" ++ lines
  | _ => none

/-- Writes a document, if it consists of settings and sections. -/
def render? : Data → Option String
  | .object members => do
    let isSection (member : String × Data) : Bool := member.2.object?.isSome
    let settings ← settings? (members.filter (!isSection ·))
    let sections ← (members.filter isSection).mapM section?
    let blocks := if settings.isEmpty then sections else settings :: sections
    return "\n".intercalate blocks
  | _ => none

end CallTrace.Toml
