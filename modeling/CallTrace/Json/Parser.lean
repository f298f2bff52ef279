import CallTrace.Data
import CallTrace.Numeral

/-!
# Reading JSON

One value, with blanks around it. What is spelled well but cannot be represented (half a surrogate
pair, a number too large for a double) becomes `Data.unusable`, so that it only hurts a reader who
needs it.

The readers of values, items and members call each other. A call either takes a character or is
followed by one that does, so twice the number of characters bounds their depth.
-/

namespace CallTrace.Json

/-- The text without the blanks in front. -/
def skipBlanks (text : List Char) : List Char :=
  text.dropWhile fun c => c == ' ' || c == '\n' || c == '\t' || c == '\r'

/-! ## Numbers -/

/-- Appends digits to a number as long as it stays below 2^64; the count says how many fitted. -/
def appendDigits (number : Nat) : List Char → Nat × Nat
  | [] => (number, 0)
  | c :: rest =>
    let next := number * 10 + (c.toNat - 0x30)
    if next < UInt64.size then
      let (result, taken) := appendDigits next rest
      (result, taken + 1)
    else (number, 0)

/-- A power of ten. -/
def tenTo (exponent : Nat) : Float := Float.ofScientific 1 false exponent

/-- The double `x * 10 ^ exponent`, computed with one multiplication or division by each power of
ten; none beyond the range of a double. -/
def scale? (x : Float) (exponent : Int) : Option Float :=
  if exponent.natAbs ≤ 308 then
    if 0 ≤ exponent then
      let y := x * tenTo exponent.natAbs
      if y.isInf then none else some y
    else some (x / tenTo exponent.natAbs)
  else if x == 0 then some x
  else if _h : 0 ≤ exponent then none
  else scale? (x / tenTo 308) (exponent + 308)
termination_by exponent.natAbs

/-- The double that whole digits, digits after the point and an exponent stand for. -/
def double? (isNegative : Bool) (whole fraction : List Char) (exponent : Int) : Option Float := do
  let (number, taken) := appendDigits 0 whole
  let dropped := whole.length - taken
  let (number, places) := appendDigits number fraction
  let x ← scale? number.toUInt64.toFloat (exponent + dropped - places)
  return if isNegative then -x else x

/-- The value of a number. Without fraction and exponent it is an integer where 64 bits suffice;
a negative zero is a double. -/
def numberData (isNegative : Bool) (whole fraction : List Char) (exponent : Option Int) : Data :=
  let magnitude := Numeral.ofDigits whole
  if fraction.isEmpty && exponent.isNone && !isNegative && magnitude < UInt64.size then
    .int magnitude
  else if fraction.isEmpty && exponent.isNone && isNegative && 0 < magnitude
      && Int64.minValue.toInt ≤ -Int.ofNat magnitude then
    .int (-Int.ofNat magnitude)
  else
    (double? isNegative whole fraction (exponent.getD 0)).elim .unusable .float

/-- Takes digits, at least one. -/
def takeDigits? (text : List Char) : Option (List Char × List Char) :=
  let digits := text.takeWhile Numeral.isDigit
  if digits.isEmpty then none else some (digits, text.dropWhile Numeral.isDigit)

/-- Reads a number. -/
def number? (text : List Char) : Option (Data × List Char) := do
  let (isNegative, text) := match text with
    | '-' :: rest => (true, rest)
    | _ => (false, text)
  let (whole, text) ← takeDigits? text
  if 1 < whole.length && whole.head? == some '0' then none
  let (fraction, text) ← match text with
    | '.' :: rest => takeDigits? rest
    | _ => some ([], text)
  let readExponent (rest : List Char) : Option (Option Int × List Char) := do
    let (isBelow, rest) := match rest with
      | '-' :: rest => (true, rest)
      | '+' :: rest => (false, rest)
      | _ => (false, rest)
    let (digits, rest) ← takeDigits? rest
    let exponent : Int := Numeral.ofDigits digits
    return (some (if isBelow then -exponent else exponent), rest)
  let (exponent, text) ← match text with
    | 'e' :: rest | 'E' :: rest => readExponent rest
    | _ => some (none, text)
  return (numberData isNegative whole fraction exponent, text)

/-! ## Texts -/

/-- A part of a text: a character, or a UTF-16 unit given by its number. -/
inductive Piece where
  | char (c : Char)
  | unit (n : Nat)

/-- The character that follows a backslash in an escape. -/
def escaped? : Char → Option Char
  | '"' => some '"'
  | '\\' => some '\\'
  | '/' => some '/'
  | 'b' => some '\x08'
  | 'f' => some '\x0c'
  | 'n' => some '\n'
  | 'r' => some '\r'
  | 't' => some '\t'
  | _ => none

/-- Takes the parts of a text up to its closing quote. -/
def pieces? : List Char → Option (List Piece × List Char)
  | '"' :: rest => some ([], rest)
  | '\\' :: 'u' :: a :: b :: c :: d :: rest => do
    let n ← Numeral.ofDigitsIn? 16 [a, b, c, d]
    let (pieces, rest) ← pieces? rest
    return (.unit n :: pieces, rest)
  | '\\' :: c :: rest => do
    let c ← escaped? c
    let (pieces, rest) ← pieces? rest
    return (.char c :: pieces, rest)
  | c :: rest => do
    if c.toNat < 0x20 || c == '\\' then none
    let (pieces, rest) ← pieces? rest
    return (.char c :: pieces, rest)
  | [] => none

/-- The characters of a text, unless a surrogate lacks its other half. -/
def chars? : List Piece → Option (List Char)
  | [] => some []
  | .char c :: rest => (chars? rest).map (c :: ·)
  | .unit n :: rest =>
    if 0xd800 ≤ n ∧ n < 0xdc00 then
      match rest with
      | .unit m :: rest =>
        if 0xdc00 ≤ m ∧ m < 0xe000 then
          (chars? rest).map (Char.ofNat (0x10000 + (n - 0xd800) * 0x400 + (m - 0xdc00)) :: ·)
        else none
      | _ => none
    else if 0xdc00 ≤ n ∧ n < 0xe000 then none
    else (chars? rest).map (Char.ofNat n :: ·)

/-- Reads a text after its opening quote. -/
def text? (text : List Char) : Option (Option String × List Char) := do
  let (pieces, rest) ← pieces? text
  return ((chars? pieces).map String.ofList, rest)

/-! ## Values -/

/-- A member, unless its key is unusable. -/
def member? (member : Option String × Data) : Option (String × Data) :=
  member.1.map fun key => (key, member.2)

/-- An object; it is unusable if one of its keys is. -/
def objectData (members : List (Option String × Data)) : Data :=
  (members.mapM member?).elim .unusable .object

mutual

/-- Reads a value. -/
def value? : Nat → List Char → Option (Data × List Char)
  | 0, _ => none
  | fuel + 1, text =>
    match skipBlanks text with
    | '\x7b' :: rest =>
      match skipBlanks rest with
      | '\x7d' :: rest => some (.object [], rest)
      | _ => do
        let (members, rest) ← members? fuel rest
        return (objectData members, rest)
    | '[' :: rest =>
      match skipBlanks rest with
      | ']' :: rest => some (.array [], rest)
      | _ => do
        let (items, rest) ← items? fuel rest
        return (.array items, rest)
    | '"' :: rest => do
      let (value, rest) ← text? rest
      return (value.elim .unusable .text, rest)
    | 'n' :: 'u' :: 'l' :: 'l' :: rest => some (.null, rest)
    | 't' :: 'r' :: 'u' :: 'e' :: rest => some (.bool true, rest)
    | 'f' :: 'a' :: 'l' :: 's' :: 'e' :: rest => some (.bool false, rest)
    | rest => number? rest

/-- Reads the items of an array up to its closing bracket. -/
def items? : Nat → List Char → Option (List Data × List Char)
  | 0, _ => none
  | fuel + 1, text => do
    let (item, rest) ← value? fuel text
    match skipBlanks rest with
    | ',' :: rest =>
      let (items, rest) ← items? fuel rest
      return (item :: items, rest)
    | ']' :: rest => return ([item], rest)
    | _ => none

/-- Reads the members of an object up to its closing brace. -/
def members? : Nat → List Char → Option (List (Option String × Data) × List Char)
  | 0, _ => none
  | fuel + 1, text => do
    let '"' :: rest := skipBlanks text | none
    let (key, rest) ← text? rest
    let ':' :: rest := skipBlanks rest | none
    let (value, rest) ← value? fuel rest
    match skipBlanks rest with
    | ',' :: rest =>
      let (members, rest) ← members? fuel rest
      return ((key, value) :: members, rest)
    | '\x7d' :: rest => return ([(key, value)], rest)
    | _ => none

end

/-- Reads a document: one value and nothing after it. -/
def parse? (document : String) : Option Data := do
  let text := document.toList
  let (value, rest) ← value? (2 * text.length + 2) text
  if (skipBlanks rest).isEmpty then return value else none

end CallTrace.Json
