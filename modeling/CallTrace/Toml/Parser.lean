import CallTrace.Toml.Scalar
import CallTrace.Toml.Table

/-!
# Reading TOML

A document is a list of statements: headers of tables, headers of elements in lists of tables, and
pairs of a key and a value. What is spelled well may still contradict what was said before, which
`Members` decides.

Arrays and tables in braces nest at most 79 deep, and a key has at most 79 parts.
-/

namespace CallTrace.Toml

/-- What keys and values may nest or have parts less than. -/
def depthLimit : Nat := 80

/-- The text without the blanks, line breaks and comments in front. -/
def skipLines (text : List Char) : List Char :=
  match text with
  | ' ' :: rest => skipLines rest
  | '\t' :: rest => skipLines rest
  | '\n' :: rest => skipLines rest
  | '\r' :: '\n' :: rest => skipLines rest
  | '#' :: rest => skipLines (rest.dropWhile isPlain)
  | rest => rest
termination_by text.length
decreasing_by
  all_goals simp only [List.length_cons]
  all_goals have := (List.dropWhile_sublist isPlain (l := rest)).length_le; omega

/-- What follows the end of a line, which may hold blanks and a comment. -/
def afterLine? (text : List Char) : Option (List Char) :=
  let rest := match skipBlanks text with
    | '#' :: comment => comment.dropWhile isPlain
    | rest => rest
  if rest.isEmpty then some [] else afterBreak? rest

/-! ## Keys -/

/-- Whether a character may stand in a key without quotes. -/
def isKeyChar (c : Char) : Bool :=
  Numeral.isDigit c || ('a' ≤ c && c ≤ 'z') || ('A' ≤ c && c ≤ 'Z') || c == '_' || c == '-'

/-- Takes one part of a key. -/
def part? (text : List Char) : Option (String × List Char) :=
  match text with
  | '"' :: _ | '\'' :: _ => lineText? text
  | _ =>
    let (name, rest) := text.span isKeyChar
    if name.isEmpty then none else some (String.ofList name, rest)

/-- Takes the parts of a key; each takes at least one character. -/
def parts? : Nat → List Char → Option (List String × List Char)
  | 0, _ => none
  | fuel + 1, text => do
    let (part, rest) ← part? (skipBlanks text)
    match skipBlanks rest with
    | '.' :: rest =>
      let (parts, rest) ← parts? fuel rest
      return (part :: parts, rest)
    | rest => return ([part], rest)

/-- A key: the parts that lead to a table, and the name within it. -/
structure Key where
  parents : List String
  name : String
  deriving DecidableEq, Repr

/-- Takes a key. -/
def key? (text : List Char) : Option (Key × List Char) := do
  let (parts, rest) ← parts? (text.length + 1) text
  if depthLimit ≤ parts.length then none
  return ({ parents := parts.dropLast, name := ← parts.getLast? }, rest)

/-! ## Values -/

/-- Takes a value; it is given how deep arrays and tables may still nest. -/
abbrev Reader := List Char → Option (Data × List Char)

/-- Takes a key and its value. -/
def pair? (value : Reader) (text : List Char) : Option ((Key × Data) × List Char) := do
  let (key, rest) ← key? text
  let '=' :: rest := rest | none
  let (data, rest) ← value (skipBlanks rest)
  return ((key, data), rest)

/-- Takes the items of an array up to its closing bracket. A comma may follow the last one. -/
def items? (value : Reader) : Nat → List Char → Option (List Data × List Char)
  | 0, _ => none
  | fuel + 1, text =>
    match skipLines text with
    | ']' :: rest => some ([], rest)
    | text => do
      let (item, rest) ← value text
      match skipLines rest with
      | ',' :: rest =>
        let (items, rest) ← items? value fuel rest
        return (item :: items, rest)
      | ']' :: rest => return ([item], rest)
      | _ => none

/-- Takes the pairs of a table in braces up to its closing brace. No comma may follow the last
one. -/
def pairs? (value : Reader) : Nat → List Char → Option (List (Key × Data) × List Char)
  | 0, _ => none
  | fuel + 1, text => do
    let (pair, rest) ← pair? value text
    match skipBlanks rest with
    | ',' :: rest =>
      let (pairs, rest) ← pairs? value fuel rest
      return (pair :: pairs, rest)
    | '\x7d' :: rest => return ([pair], rest)
    | _ => none

/-- The data of a table in braces. -/
def bracedData? (pairs : List (Key × Data)) : Option Data := do
  let members ← pairs.foldlM (fun members (key, data) =>
    Members.put? key.parents key.name data .header members) []
  return .object (Members.toFields members)

/-- Takes a value that stays in its place: a text or a word. -/
def simple? (text : List Char) : Option (Data × List Char) :=
  match text with
  | '"' :: _ | '\'' :: _ => (text? text).map fun (text, rest) => (.text text, rest)
  | _ => scalar? text

/-- Takes a value, in which arrays and tables may nest so deep. -/
def value? : Nat → Reader
  | 0 => simple?
  | depth + 1 => fun text =>
    match text with
    | '[' :: rest => do
      let (items, rest) ← items? (value? depth) (rest.length + 1) rest
      return (.array items, rest)
    | '\x7b' :: rest =>
      match skipBlanks rest with
      | '\x7d' :: rest => some (.object [], rest)
      | _ => do
        let (pairs, rest) ← pairs? (value? depth) (rest.length + 1) rest
        return (← bracedData? pairs, rest)
    | text => simple? text

/-! ## Documents -/

/-- A statement of a document. -/
inductive Statement where
  | table (key : Key)
  | element (key : Key)
  | pair (key : Key) (data : Data)

/-- Takes a statement and the end of its line. -/
def statement? (text : List Char) : Option (Statement × List Char) :=
  match text with
  | '[' :: '[' :: rest => do
    let (key, rest) ← key? rest
    let ']' :: ']' :: rest := rest | none
    return (.element key, ← afterLine? rest)
  | '[' :: rest => do
    let (key, rest) ← key? rest
    let ']' :: rest := rest | none
    return (.table key, ← afterLine? rest)
  | text => do
    let ((key, data), rest) ← pair? (value? (depthLimit - 1)) text
    return (.pair key data, ← afterLine? rest)

/-- Takes all statements; each takes at least one character. -/
def statements? : Nat → List Char → Option (List Statement)
  | 0, _ => none
  | fuel + 1, text =>
    match skipLines text with
    | [] => some []
    | text => do
      let (statement, rest) ← statement? text
      return statement :: (← statements? fuel rest)

/-- What a document says so far. -/
structure Draft where
  members : Members := []
  /-- The path of the table that pairs go into. -/
  path : List String := []

/-- Adds a statement, unless it contradicts the draft. -/
def Draft.add? (draft : Draft) : Statement → Option Draft
  | .table key => do
    let members ← Members.openTable? key.parents key.name draft.members
    return { members, path := key.parents ++ [key.name] }
  | .element key => do
    let members ← Members.openElement? key.parents key.name draft.members
    return { members, path := key.parents ++ [key.name] }
  | .pair key data => do
    let members ← Members.descend? false (Members.put? key.parents key.name data) draft.path .header
      draft.members
    return { draft with members }

/-- Reads a document, in front of which a byte order mark may stand. -/
def parse? (document : String) : Option Data := do
  let text := match document.toList with
    | '\ufeff' :: rest => rest
    | text => text
  let statements ← statements? (text.length + 1) text
  let draft ← statements.foldlM Draft.add? {}
  return .object (Members.toFields draft.members)

end CallTrace.Toml
