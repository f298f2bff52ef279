import CallTrace.Numeral
import CallTrace.Script.Token
import CallTrace.Text.Blank

/-!
# Reading tokens

Tokens are taken from the front of a script one by one, each with the place of its first character.
Blanks and comments stand between tokens and mean nothing; only blanks of ASCII count as such.
Comments between marks nest, and one that is not closed goes on to the end.

A text stands between quotes and can hold escapes; between backticks it holds everything as it is,
and blocks after a dollar sign, whose values are put in their places. The parts of such a text
between the blocks are read by `nextText`.
-/

namespace CallTrace.Script

/-- What is left of a script, and the place of the last character that was taken. -/
structure Lexer where
  rest : List Char
  position : Position := {}
  deriving DecidableEq, Repr

namespace Lexer

/-! ## Blanks and comments -/

/-- What is being passed over. -/
inductive Gap where
  | blanks
  | line
  /-- A comment between marks, within so many others. -/
  | block (depth : Nat)

/-- Passes over blanks and comments. -/
def skip (gap : Gap) (text : List Char) (position : Position) : Lexer :=
  match text with
  | [] => ⟨[], position⟩
  | c :: rest =>
    match gap with
    | .blanks =>
      if c == '\n' then skip .blanks rest position.nextLine
      else if c == ' ' || c == '\t' || c == '\r' || c == '\x0c' then
        skip .blanks rest position.next
      else
        match rest with
        | d :: more =>
          if c == '/' && d == '/' then skip .line more (position.forward 2)
          else if c == '/' && d == '*' then skip (.block 0) more (position.forward 2)
          else ⟨text, position⟩
        | [] => ⟨text, position⟩
    | .line =>
      if c == '\n' then skip .blanks rest position.nextLine
      else if c == '\r' then
        match rest with
        | d :: more =>
          if d == '\n' then skip .blanks more position.nextLine
          else skip .blanks (d :: more) position.nextLine
        | [] => ⟨[], position.nextLine⟩
      else skip .line rest position.next
    | .block depth =>
      if c == '\n' then skip (.block depth) rest position.nextLine
      else
        match rest with
        | d :: more =>
          if c == '/' && d == '*' then skip (.block (depth + 1)) more (position.forward 2)
          else if c == '*' && d == '/' then
            match depth with
            | 0 => skip .blanks more (position.forward 2)
            | depth + 1 => skip (.block depth) more (position.forward 2)
          else skip (.block depth) (d :: more) position.next
        | [] => ⟨[], position.next⟩

/-! ## Texts -/

/-- How texts between some quotes are written. -/
structure Quotes where
  mark : Char
  /-- Everything stands for itself, line ends included. -/
  isVerbatim : Bool := false
  /-- A backslash at the end of a line goes on in the next one. -/
  continues : Bool := false
  /-- A dollar sign in front of a block embeds it. -/
  embeds : Bool := false
  deriving DecidableEq, Repr

/-- Where a text stands with regard to escapes. -/
inductive Escape where
  | plain
  /-- After a backslash. -/
  | opened
  /-- After a quote which stands for itself because another one follows. -/
  | doubled
  /-- Within the digits of a character's number. -/
  | digits (left value : Nat) (sequence : List Char)
  deriving DecidableEq, Repr

/-- What has been read of a text, in reverse. -/
structure Reading where
  text : List Char := []
  /-- The length of the text in bytes. -/
  size : Nat := 0
  escape : Escape := .plain
  /-- After a line was continued, blanks in front of this column do not count. -/
  indent : Nat := 0
  deriving DecidableEq, Repr

namespace Reading

/-- Adds a character that an escape stands for. -/
def push (reading : Reading) (c : Char) : Reading :=
  { reading with text := c :: reading.text, size := reading.size + c.utf8Size, escape := .plain }

/-- Adds a character that stands for itself. Blanks count again after it. -/
def pushPlain (reading : Reading) (c : Char) : Reading := { reading.push c with indent := 0 }

/-- The text that was read. -/
def value (reading : Reading) : String := String.ofList reading.text.reverse

end Reading

/-- How many digits the number of a character has after the letter of an escape. -/
def digitCounts : List (Char × Nat) := [('x', 2), ('u', 4), ('U', 8)]

/-- The characters that escapes with a letter stand for. -/
def escapes : List (Char × Char) := [('\\', '\\'), ('t', '\t'), ('n', '\n'), ('r', '\r')]

/-- Reads a text after its opening quote, which stands at `start`. Says whether a block follows. -/
def readText (quotes : Quotes) (start : Position) (reading : Reading) (text : List Char)
    (position : Position) : Except Malformed (String × Bool × Lexer) :=
  match text with
  | [] =>
    match reading.escape with
    | .digits _ _ sequence =>
      throw ⟨.badEscape (String.ofList sequence.reverse), position⟩
    | _ => throw ⟨.openText, start⟩
  | c :: rest => do
    let position := position.next
    match reading.escape with
    | .digits left value sequence =>
      let sequence := c :: sequence
      let refused := ⟨.badEscape (String.ofList sequence.reverse), position⟩
      match Numeral.hexValue? c with
      | none => throw refused
      | some digit =>
        let value := 16 * value + digit
        match left with
        | 0 | 1 =>
          if Nat.isValidChar value then
            readText quotes start (reading.push (Char.ofNat value)) rest position
          else throw refused
        | left + 1 =>
          readText quotes start { reading with escape := .digits left value sequence } rest position
    | .doubled => readText quotes start (reading.pushPlain c) rest position
    | .plain =>
      if quotes.embeds && c == '$' && rest.head? == some '\x7b' then
        return (reading.value, true, ⟨rest, position⟩)
      else if Token.maxTextLength < reading.size then
        throw ⟨.longText Token.maxTextLength, start⟩
      else if c == quotes.mark then
        if rest.head? == some quotes.mark then
          readText quotes start { reading with escape := .doubled } rest position
        else return (reading.value, false, ⟨rest, position⟩)
      else if c == '\r' && rest.head? == some '\n' then
        readText quotes start reading rest position
      else if c == '\\' && !quotes.isVerbatim then
        readText quotes start { reading with escape := .opened } rest position
      else if c == '\n' then
        if quotes.isVerbatim then
          readText quotes start (reading.pushPlain c) rest position.nextLine
        else throw ⟨.openText, start⟩
      else if Text.isBlank c && position.column < reading.indent then
        readText quotes start reading rest position
      else readText quotes start (reading.pushPlain c) rest position
    | .opened =>
      if Token.maxTextLength < reading.size then throw ⟨.longText Token.maxTextLength, start⟩
      else if c == '\r' && rest.head? == some '\n' then
        readText quotes start reading rest position
      else
        match escapes.lookup c, digitCounts.lookup c with
        | some value, _ => readText quotes start (reading.push value) rest position
        | none, some count =>
          readText quotes start { reading with escape := .digits count 0 [c, '\\'] } rest position
        | none, none =>
          if c == quotes.mark then readText quotes start (reading.push c) rest position
          else if c == '\n' then
            if quotes.continues then
              readText quotes start
                { reading with escape := .plain, indent := start.column + 1 } rest position.nextLine
            else throw ⟨.openText, start⟩
          else throw ⟨.badEscape (String.ofList ['\\', c]), position⟩

/-- Reads a text between hashes and quotes after its opening quote; `marks` is the number of hashes.
A quote with fewer hashes after it belongs to the text; `seen` counts them after the last quote. -/
def readRaw (marks : Nat) (start : Position) (reading : Reading) (seen : Option Nat)
    (text : List Char) (position : Position) : Except Malformed (String × Lexer) :=
  match text with
  | [] => throw ⟨.openText, start⟩
  | c :: rest =>
    let position := if c == '\n' then position.nextLine else position.next
    if c == '#' && seen == some (marks - 1) then
      let value := { reading with text := reading.text.drop marks }.value
      if Token.maxTextLength < value.utf8ByteSize then
        throw ⟨.longText Token.maxTextLength, start⟩
      else return (value, ⟨rest, position⟩)
    else
      let seen := if c == '"' then some 0 else if c == '#' then seen.map (· + 1) else none
      readRaw marks start (reading.pushPlain c) seen rest position

/-! ## Numbers -/

/-- What has been read of a number, in reverse. -/
structure Digits where
  text : List Char
  base : Nat := 10
  hasPoint : Bool := false
  hasExponent : Bool := false
  deriving DecidableEq, Repr

/-- The bases of numbers after a zero and a letter. -/
def bases : List (Char × Nat) := [('x', 16), ('o', 8), ('b', 2), ('X', 16), ('O', 8), ('B', 2)]

/-- Reads the rest of a number. Underscores separate digits. A point belongs to the number if a
digit follows, or something that neither names a property nor goes on with the point. -/
def readDigits (digits : Digits) (text : List Char) (position : Position) : Digits × Lexer :=
  match text with
  | [] => (digits, ⟨[], position⟩)
  | c :: rest =>
    if c == '_' then readDigits digits rest position.next
    else if (Numeral.hexValue? c).any (· < digits.base) then
      readDigits { digits with text := c :: digits.text } rest position.next
    else if c == '.' && !digits.hasPoint && digits.base == 10 then
      match rest with
      | d :: more =>
        if Numeral.isDigit d then
          readDigits { digits with text := c :: digits.text, hasPoint := true } (d :: more)
            position.next
        else if d == '.' || Token.startsName d then (digits, ⟨text, position⟩)
        else
          readDigits { digits with text := '0' :: c :: digits.text, hasPoint := true } (d :: more)
            position.next
      | [] => (digits, ⟨text, position⟩)
    else if c == 'e' && !digits.hasExponent && digits.base == 10 then
      let found : Digits :=
        { digits with text := c :: digits.text, hasPoint := true, hasExponent := true }
      match rest with
      | d :: more =>
        if Numeral.isDigit d then readDigits found (d :: more) position.next
        else if d == '+' || d == '-' then
          readDigits { found with text := d :: found.text } more (position.forward 2)
        else (digits, ⟨text, position⟩)
      | [] => (digits, ⟨text, position⟩)
    else
      match bases.lookup c with
      | some base =>
        if digits.text == ['0'] && digits.base == 10 then
          readDigits { digits with text := [], base } rest position.next
        else (digits, ⟨text, position⟩)
      | none => (digits, ⟨text, position⟩)

/-- The greatest power of ten that a number is scaled by. Beyond it nothing changes. -/
def scaleLimit : Nat := 20000

/-- The number with some digits before and after its point and an exponent. -/
def decimal (whole fraction : List Char) (isNegative : Bool) (exponent : Nat) : Float :=
  let exponent := if isNegative then -(exponent : Int) else exponent
  let scale := exponent - fraction.length
  Float.ofScientific (Numeral.ofDigits (whole ++ fraction)) (scale < 0)
    (min scaleLimit scale.natAbs)

/-- The token that a number is. Whole numbers beyond 64 bits are floating-point numbers. -/
def Digits.token (digits : Digits) : Token :=
  let text := digits.text.reverse
  if digits.base ≠ 10 then
    match Numeral.ofDigitsIn? digits.base text with
    | some value =>
      if text.isEmpty || UInt64.size ≤ value then .malformed (.badNumber (String.ofList text))
      else .int (Int64.ofNat value).toInt
    | none => .malformed (.badNumber (String.ofList text))
  else
    let (whole, rest) := text.span Numeral.isDigit
    let (fraction, rest) : List Char × List Char := match rest with
      | '.' :: rest => rest.span Numeral.isDigit
      | rest => ([], rest)
    match rest with
    | [] =>
      let value := Numeral.ofDigits whole
      if digits.hasPoint || Int64.maxValue.toInt < value then
        .float (decimal whole fraction false 0)
      else .int value
    | _ :: '-' :: exponent => withExponent whole fraction true exponent
    | _ :: '+' :: exponent => withExponent whole fraction false exponent
    | _ :: exponent => withExponent whole fraction false exponent
where
  /-- The token of a number with an exponent, whose digits may be missing. -/
  withExponent (whole fraction : List Char) (isNegative : Bool) (exponent : List Char) : Token :=
    if exponent.isEmpty then .malformed (.badNumber (String.ofList digits.text.reverse))
    else .float (decimal whole fraction isNegative (Numeral.ofDigits exponent))

/-! ## Tokens -/

/-- The token of a text, or of the part of one that stands in front of a block. -/
def textToken (value : String) (isTemplate : Bool) : Token :=
  if Token.maxTextLength < value.utf8ByteSize then .malformed (.longText Token.maxTextLength)
  else if isTemplate then .template value
  else .string value

/-- Reads on in a text between backticks, after a block. -/
def nextText (lexer : Lexer) : Token × Position × Lexer :=
  let start := lexer.position.next
  let quotes : Quotes := { mark := '\x60', isVerbatim := true, embeds := true }
  match readText quotes start {} lexer.rest lexer.position with
  | .ok (value, isTemplate, lexer) => (textToken value isTemplate, start, lexer)
  | .error malformed => (.malformed malformed.fault, malformed.position, ⟨[], lexer.position⟩)

/-- The token of a character between apostrophes. -/
def charToken (value : String) : Token :=
  match value.toList with
  | [c] => .char c
  | _ => .malformed (.badCharacter value)

/-- Reads a text between some quotes into a token. -/
def quoted (quotes : Quotes) (token : String → Bool → Token) (start : Position) (lexer : Lexer) :
    Token × Position × Lexer :=
  match readText quotes start {} lexer.rest lexer.position with
  | .ok (value, isTemplate, lexer) => (token value isTemplate, start, lexer)
  | .error malformed => (.malformed malformed.fault, malformed.position, ⟨[], lexer.position⟩)

/-- Reads a text between backticks. A line end right after the first one does not count. -/
def backticked (start : Position) (rest : List Char) : Token × Position × Lexer :=
  let quotes : Quotes := { mark := '\x60', isVerbatim := true, embeds := true }
  match rest with
  | '\r' :: '\n' :: rest | '\r' :: rest | '\n' :: rest =>
    quoted quotes textToken start ⟨rest, start.nextLine⟩
  | rest => quoted quotes textToken start ⟨rest, start⟩

/-- Reads a text between hashes and quotes. -/
def raw (start : Position) (text : List Char) : Token × Position × Lexer :=
  let marks := (text.takeWhile (· == '#')).length
  match text.drop marks with
  | '"' :: rest =>
    match readRaw marks start {} none rest (start.forward marks) with
    | .ok (value, lexer) => (.string value, start, lexer)
    | .error malformed => (.malformed malformed.fault, malformed.position, ⟨[], start⟩)
  | rest => (.malformed (.unexpected (String.ofList (rest.take 1))), start, ⟨rest, start⟩)

/-- Reads a symbol of at most three characters. -/
def symbol (start : Position) (text : List Char) : Token × Position × Lexer :=
  let found (length : Nat) : Option (Token × Position × Lexer) :=
    (Token.ofSymbol? text length).map fun token =>
      (token, start, ⟨text.drop length, start.forward (length - 1)⟩)
  match (found 3).or ((found 2).or (found 1)) with
  | some result => result
  | none =>
    (.malformed (.unexpected (String.ofList (text.take 1))), start, ⟨text.drop 1, start⟩)

/-- Reads the next token, with its place. -/
def next (lexer : Lexer) : Token × Position × Lexer :=
  let ⟨text, position⟩ := skip .blanks lexer.rest lexer.position
  let start := position.next
  match text with
  | [] => (.endOfScript, start, ⟨[], start⟩)
  | c :: rest =>
    if Token.startsName c then
      let word := text.takeWhile Token.inName
      (.ofWord (String.ofList word), start,
        ⟨text.drop word.length, start.forward (word.length - 1)⟩)
    else if Numeral.isDigit c then
      let (digits, lexer) := readDigits { text := [c] } rest start
      (digits.token, start, lexer)
    else if c == '"' then
      quoted { mark := '"', continues := true } textToken start ⟨rest, start⟩
    else if c == '\x60' then backticked start rest
    else if c == '\'' then
      if rest.head? == some '\'' then
        (.malformed (.badCharacter ""), start, ⟨rest.drop 1, start.next⟩)
      else quoted { mark := '\'' } (fun value _ => charToken value) start ⟨rest, start⟩
    else if c == '#' && (rest.head? == some '"' || rest.head? == some '#') then raw start text
    else
      match rest with
      | 'i' :: 'n' :: more =>
        if c == '!' && !(more.head?.any Token.inName) then
          (.symbol "!in", start, ⟨more, start.forward 2⟩)
        else symbol start text
      | _ => symbol start text

end Lexer

end CallTrace.Script
