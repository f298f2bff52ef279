import CallTrace.Numeral
import CallTrace.Text.Alphanumeric
import CallTrace.Text.Blank

/-!
# Patterns of field values

A log filter can ask for a field whose value matches a pattern, which is a regular expression. Here
it is only decided whether a pattern can be used: it has to be well formed, and no part of it may
need tables of characters: names of properties, classes such as digits beyond ASCII, or letters
without regard to case beyond ASCII. Braces cannot be written, because they end a field.
-/

namespace CallTrace.FieldPattern

/-- Why a pattern is refused. -/
inductive Fault where
  | malformed
  /-- A boundary between words of any script is asked for. -/
  | wordBoundary
  deriving DecidableEq, Repr

/-- The wording of a fault. -/
def Fault.message : Fault → String
  | malformed => "error building NFA"
  | wordBoundary =>
    "unsupported regex feature for DFAs: cannot build DFAs for regexes with Unicode word "
    ++ "boundaries; switch to ASCII word boundaries, or heuristically enable Unicode word "
    ++ "boundaries or use a different regex engine"

/-- The modes that a pattern can switch on and off for the rest of a group. -/
structure Modes where
  ignoresCase : Bool := false
  /-- Characters are taken as such, and not as bytes. -/
  isUnicode : Bool := true
  /-- Blanks and comments count for nothing. -/
  isSpaced : Bool := false
  deriving DecidableEq, Repr

/-- What is left of a pattern, and what has been seen of it. -/
structure State where
  rest : List Char
  modes : Modes := {}
  /-- The names of the groups. -/
  names : List (List Char) := []
  hasBoundary : Bool := false
  deriving DecidableEq, Repr

/-- A step through a pattern. It fails on a pattern that cannot be used. -/
abbrev Parse := StateT State Option

/-! ## Characters -/

/-- Drops blanks and comments. A comment goes on to the end of its line. -/
def dropSpace (inComment : Bool) : List Char → List Char
  | [] => []
  | c :: rest =>
    if inComment then dropSpace (c != '\n') rest
    else if Text.isBlank c then dropSpace false rest
    else if c == '#' then dropSpace true rest
    else c :: rest

/-- Passes over what counts for nothing. -/
def skipSpace : Parse Unit :=
  modify fun s => if s.modes.isSpaced then { s with rest := dropSpace false s.rest } else s

/-- Goes on with another rest. -/
def goOn (rest : List Char) : Parse Unit := modify ({ · with rest })

/-- The next character. -/
def next : Parse Char := do
  match (← get).rest with
  | [] => failure
  | c :: rest => goOn rest; return c

/-- Goes on only if something holds. -/
def demand (holds : Bool) : Parse Unit := if holds then return else failure

/-! ## Escapes -/

/-- What a character or an escape stands for. -/
inductive Piece where
  /-- A character; `isByte` if it is written by the two digits of a byte. -/
  | literal (c : Char) (isByte : Bool)
  | set
  | assertion
  deriving DecidableEq, Repr

/-- The number that so many hexadecimal digits stand for. -/
def hexNumber : Nat → Nat → Parse Nat
  | 0, value => return value
  | digits + 1, value => do
    skipSpace
    match Numeral.hexValue? (← next) with
    | some digit => hexNumber digits (16 * value + digit)
    | none => failure

/-- The character with a number of so many hexadecimal digits. -/
def hexCharacter (digits : Nat) : Parse Char := do
  let value ← hexNumber digits 0
  demand (Nat.isValidChar value)
  return Char.ofNat value

/-- Escapes of characters that cannot be seen. -/
def controls : List (Char × Nat) :=
  [('a', 0x7), ('f', 0xc), ('t', 0x9), ('n', 0xa), ('r', 0xd), ('v', 0xb)]

/-- A boundary between words; only one between words of ASCII can be found later. -/
def boundary : Parse Piece := do
  modify fun s => { s with hasBoundary := s.hasBoundary || s.modes.isUnicode }
  return .assertion

/-- Reads an escape after its backslash. -/
def readEscape : Parse Piece := do
  let modes := (← get).modes
  let c ← next
  if c == 'x' then return .literal (← hexCharacter 2) true
  if c == 'u' then return .literal (← hexCharacter 4) false
  if c == 'U' then return .literal (← hexCharacter 8) false
  if c == 'd' || c == 's' || c == 'w' then
    demand (!modes.isUnicode)
    return .set
  if c == 'A' || c == 'z' then return .assertion
  if c == 'b' || c == 'B' || c == '<' || c == '>' then return ← boundary
  match controls.lookup c with
  | some n => return .literal (Char.ofNat n) false
  | none =>
    demand (c.toNat < 0x80 && !c.isAlphanum)
    return .literal c false

/-! ## Classes in brackets -/

/-- The names of classes of ASCII characters. -/
def asciiClasses : List String :=
  ["alnum", "alpha", "ascii", "blank", "cntrl", "digit", "graph", "lower", "print", "punct",
    "space", "upper", "word", "xdigit"]

/-- Reads a named class such as `[:alpha:]`, which can be negated, and hands back the rest. -/
def asciiClass? (text : List Char) : Option (Bool × List Char) :=
  match text with
  | '[' :: ':' :: rest =>
    let (isNegated, rest) : Bool × List Char := match rest with
      | '^' :: rest => (true, rest)
      | rest => (false, rest)
    match rest.span (· != ':') with
    | (name, ':' :: ']' :: rest) =>
      if asciiClasses.contains (String.ofList name) then some (isNegated, rest) else none
    | _ => none
  | _ => none

/-- What has been read of a class: the operand that stands last, and those in front of it. Depths
count how far parts are nested. -/
structure Bracket where
  isNegated : Bool
  /-- How many items the last operand has. -/
  items : Nat := 0
  depth : Nat := 0
  /-- The depth of the operands in front. -/
  left : Option Nat := none
  isEmpty : Bool := true
  deriving DecidableEq, Repr

namespace Bracket

/-- Adds an item. -/
def add (bracket : Bracket) (depth : Nat) : Bracket :=
  { bracket with
    items := bracket.items + 1, depth := max bracket.depth depth, isEmpty := false }

/-- The depth of the operands. -/
def inner (bracket : Bracket) : Nat :=
  let last := if 1 < bracket.items then bracket.depth + 1 else bracket.depth
  bracket.left.elim last fun left => 1 + max left last

/-- Starts another operand. -/
def operand (bracket : Bracket) : Bracket :=
  { bracket with items := 0, depth := 0, left := some bracket.inner }

end Bracket

/-- Adds the hyphens at the start of a class, which stand for themselves. -/
def leadingHyphens : Nat → Bracket → Parse Bracket
  | 0, _ => failure
  | fuel + 1, bracket => do
    skipSpace
    match (← get).rest with
    | [] => failure
    | '-' :: rest => goOn rest; leadingHyphens fuel (bracket.add 0)
    | ']' :: rest =>
      if bracket.items = 0 then
        goOn rest
        skipSpace
        return bracket.add 0
      else return bracket
    | _ => return bracket

/-- Opens a class after its bracket. -/
def openBracket : Parse Bracket := do
  skipSpace
  let isNegated := (← get).rest.head? == some '^'
  if isNegated then let _ ← next
  leadingHyphens ((← get).rest.length + 1) { isNegated }

/-- A character of a class, or an escape. -/
def readMember : Parse Piece := do
  match ← next with
  | '\\' => readEscape
  | c => return .literal c false

/-- The character that a piece of a class stands for; beyond ASCII only where characters count. -/
def Piece.member (piece : Piece) : Parse Char := do
  match piece with
  | .literal c _ =>
    demand ((← get).modes.isUnicode || c.toNat < 0x80)
    return c
  | _ => failure

/-- The character after a hyphen that has to be known first. -/
def afterHyphen (modes : Modes) (rest : List Char) : Option Char :=
  if modes.isSpaced then
    match Text.trimStart rest with
    | '#' :: rest => (Text.trimStart rest).head?
    | rest => rest.head?
  else rest.head?

/-- Reads a member of a class or a range of them. -/
def readRange : Parse Unit := do
  let first ← readMember
  skipSpace
  match (← get).rest with
  | [] => failure
  | '-' :: rest =>
    let after := afterHyphen (← get).modes rest
    if after == some ']' || after == some '-' then single first
    else
      goOn rest
      skipSpace
      let last ← readMember
      demand ((← first.member).toNat ≤ (← last.member).toNat)
  | _ => single first
where
  /-- Takes a piece on its own. -/
  single (piece : Piece) : Parse Unit :=
    match piece with
    | .set => return
    | _ => do let _ ← piece.member

/-- Whether a class may be negated, and its letters be taken without regard to case. -/
def checkClass (isNegated isEmpty : Bool) : Parse Unit := do
  let modes := (← get).modes
  demand (if modes.isUnicode then isEmpty || !modes.ignoresCase else !isNegated)

/-- Reads a class to its end, and gives the depth of its parts. -/
def readClass : Nat → Bracket → Parse Nat
  | 0, _ => failure
  | fuel + 1, bracket => do
    skipSpace
    let rest := (← get).rest
    match asciiClass? rest with
    | some (isNegated, rest) =>
      checkClass isNegated false
      goOn rest
      readClass fuel (bracket.add 0)
    | none =>
      match rest with
      | [] => failure
      | '[' :: rest =>
        goOn rest
        let depth ← readClass fuel (← openBracket)
        readClass fuel (bracket.add depth)
      | ']' :: rest =>
        checkClass bracket.isNegated bracket.isEmpty
        goOn rest
        return 1 + bracket.inner
      | '&' :: '&' :: rest | '-' :: '-' :: rest | '~' :: '~' :: rest =>
        goOn rest
        readClass fuel bracket.operand
      | _ =>
        readRange
        readClass fuel (bracket.add 0)

/-! ## Groups -/

/-- Reads modes up to the sign that ends them. Each is named once, and after a hyphen switched
off. -/
def readModes (isOn : Bool) (seen : List Char) (modes : Modes) :
    List Char → Option (List Char × Modes × List Char)
  | [] => none
  | c :: rest =>
    if c == ':' || c == ')' then
      if seen.head? == some '-' then none else some (seen, modes, c :: rest)
    else if seen.contains c then none
    else
      match c with
      | '-' => readModes false (c :: seen) modes rest
      | 'i' => readModes isOn (c :: seen) { modes with ignoresCase := isOn } rest
      | 'u' => readModes isOn (c :: seen) { modes with isUnicode := isOn } rest
      | 'x' => readModes isOn (c :: seen) { modes with isSpaced := isOn } rest
      | 'm' | 's' | 'U' | 'R' => readModes isOn (c :: seen) modes rest
      | _ => none

/-- Whether a text can name a group. -/
def isGroupName : List Char → Bool
  | [] => false
  | c :: rest =>
    (c == '_' || Text.isAlphabetic c)
      && rest.all fun c => c == '_' || c == '.' || c == '[' || c == ']' || Text.isAlphanumeric c

/-- Takes the name of a group up to the sign that ends it. -/
def readName (text : List Char) : Parse Unit := do
  match text.span (· != '>') with
  | (name, _ :: rest) =>
    demand (isGroupName name && !(← get).names.contains name)
    modify fun s => { s with names := name :: s.names, rest }
  | _ => failure

/-- Reads what follows an opening parenthesis. Tells whether a group begins, or modes have been set
for the rest of the group around. -/
def openGroup : Parse Bool := do
  skipSpace
  match (← get).rest with
  | '?' :: '=' :: _ | '?' :: '!' :: _ | '?' :: '<' :: '=' :: _ | '?' :: '<' :: '!' :: _ => failure
  | '?' :: 'P' :: '<' :: rest | '?' :: '<' :: rest =>
    readName rest
    return true
  | '?' :: rest =>
    match readModes true [] (← get).modes rest with
    | some (seen, modes, c :: rest) =>
      modify ({ · with modes, rest })
      demand (c == ':' || !seen.isEmpty)
      return c == ':'
    | _ => failure
  | _ => return true

/-- A part of a branch: how far it is nested, and whether it can be repeated. -/
structure Part where
  depth : Nat
  isRepeatable : Bool := true
  deriving DecidableEq, Repr

/-- The depth of a row of parts; a single one makes no row. -/
def rowDepth : List Nat → Nat
  | [] => 0
  | [depth] => depth
  | depths => 1 + depths.foldl max 0

/-- Whether a character that stands for itself can be matched. -/
def checkLiteral (c : Char) (isByte : Bool) : Parse Unit := do
  let modes := (← get).modes
  demand (if modes.isUnicode then !modes.ignoresCase else !(isByte && 0x80 ≤ c.toNat))

/-- Reads a part that is neither a group nor a class in brackets. -/
def readPrimitive : Parse Unit := do
  match ← next with
  | '\x7b' => failure
  | '.' => demand (← get).modes.isUnicode
  | '^' | '$' => return
  | '\\' =>
    match ← readEscape with
    | .literal c isByte => checkLiteral c isByte
    | _ => return
  | c => checkLiteral c false

/-- Reads the branches of a group, or those of the whole pattern, and gives their depth. The parts
of the current branch and the depths of the earlier ones come in reverse. -/
def readBranches : Nat → Bool → List Part → List Nat → Parse Nat
  | 0, _, _, _ => failure
  | fuel + 1, inGroup, parts, branches => do
    skipSpace
    let depth := rowDepth (parts.map (·.depth))
    match (← get).rest with
    | [] =>
      demand (!inGroup)
      return rowDepth (depth :: branches)
    | ')' :: rest =>
      demand inGroup
      goOn rest
      return rowDepth (depth :: branches)
    | '|' :: rest =>
      goOn rest
      readBranches fuel inGroup [] (depth :: branches)
    | '(' :: rest =>
      goOn rest
      let modes := (← get).modes
      if ← openGroup then
        let inner ← readBranches fuel true [] []
        modify ({ · with modes })
        readBranches fuel inGroup ({ depth := inner + 1 } :: parts) branches
      else readBranches fuel inGroup ({ depth := 0, isRepeatable := false } :: parts) branches
    | '[' :: rest =>
      goOn rest
      let inner ← readClass fuel (← openBracket)
      readBranches fuel inGroup ({ depth := inner } :: parts) branches
    | c :: rest =>
      if c == '?' || c == '*' || c == '+' then
        match parts with
        | { depth, isRepeatable := true } :: parts =>
          goOn (if rest.head? == some '?' then rest.drop 1 else rest)
          readBranches fuel inGroup ({ depth := depth + 1 } :: parts) branches
        | _ => failure
      else
        readPrimitive
        readBranches fuel inGroup ({ depth := 0 } :: parts) branches

/-- How far the parts of a pattern can be nested. -/
def depthLimit : Nat := 250

/-- Checks a pattern. -/
def check (pattern : List Char) : Except Fault Unit :=
  match (readBranches (pattern.length + 1) false [] []).run { rest := pattern } with
  | some (depth, state) =>
    if depthLimit < depth then throw .malformed
    else if state.hasBoundary then throw .wordBoundary
    else return
  | none => throw .malformed

end CallTrace.FieldPattern
