import CallTrace.Data
import CallTrace.Instant
import CallTrace.Toml.Text

/-!
# Unquoted values in TOML

Truth values, integers, floating-point numbers, dates and times are words of letters, digits and a
few signs. A date and a time of day may also be two words with one blank between them. A date or
time is an object with one member, so that it is taken neither for a number nor for a text.
-/

namespace CallTrace.Toml

/-- Whether a character belongs to an unquoted value. -/
def isWordChar (c : Char) : Bool :=
  Numeral.isDigit c || ('a' ≤ c && c ≤ 'z') || ('A' ≤ c && c ≤ 'Z') || "+-_.:".contains c

/-! ## Numbers -/

/-- The digits of a number, in which single underscores may stand between digits. -/
def grouped? (isDigit : Char → Bool) : List Char → Option (List Char)
  | [] => none
  | [c] => if isDigit c then some [c] else none
  | c :: '_' :: rest => if isDigit c then (grouped? isDigit rest).map (c :: ·) else none
  | c :: rest => if isDigit c then (grouped? isDigit rest).map (c :: ·) else none

/-- The digits of a whole number, which starts with a zero only if it is zero. -/
def whole? (word : List Char) : Option (List Char) := do
  let digits ← grouped? Numeral.isDigit word
  if 1 < digits.length && digits.head? == some '0' then none
  return digits

/-- The sign of a number, which is true for minus, and what follows it. -/
def splitSign : List Char → Bool × List Char
  | '-' :: rest => (true, rest)
  | '+' :: rest => (false, rest)
  | rest => (false, rest)

/-- An integer of 64 bits. Without a sign it may be written in another base. -/
def integer? (word : List Char) : Option Int := do
  let inBase (base : Nat) (digits : List Char) : Option Int := do
    let digits ← grouped? (fun c => (Numeral.ofDigitsIn? base [c]).isSome) digits
    return (← Numeral.ofDigitsIn? base digits)
  let n ← match word with
    | '0' :: 'x' :: digits => inBase 16 digits
    | '0' :: 'o' :: digits => inBase 8 digits
    | '0' :: 'b' :: digits => inBase 2 digits
    | word => do
      let (isNegative, word) := splitSign word
      let magnitude : Int := Numeral.ofDigits (← whole? word)
      pure (if isNegative then -magnitude else magnitude)
  if Int64.minValue.toInt ≤ n ∧ n ≤ Int64.maxValue.toInt then return n else none

/-- The double `digits * 10 ^ exponent`. The exponent counts only where the result is neither zero
nor beyond all doubles. -/
def scaled (digits : List Char) (exponent : Int) : Float :=
  let mantissa := Numeral.ofDigits digits
  if mantissa = 0 then 0
  else
    let bound : Int := 400 + digits.length
    let exponent := max (-bound) (min bound exponent)
    Float.ofScientific mantissa (exponent < 0) exponent.natAbs

/-- A floating-point number: one with a fraction, with an exponent or with both. A positive number
beyond all doubles is none. -/
def float? (word : List Char) : Option Float := do
  let (isNegative, word) := splitSign word
  let signed (x : Float) : Float := if isNegative then -x else x
  if word = ['i', 'n', 'f'] then return signed (1 / 0)
  if word = ['n', 'a', 'n'] then return signed (0 / 0)
  let (mantissa, power) := word.span fun c => c != 'e' && c != 'E'
  let (front, back) := mantissa.span (· != '.')
  if power.isEmpty && back.isEmpty then none
  let whole ← whole? front
  let fraction ← match back with
    | _ :: digits => grouped? Numeral.isDigit digits
    | [] => pure []
  let exponent : Int ← match power with
    | _ :: power => do
      let (isBelow, digits) := splitSign power
      let size : Int := Numeral.ofDigits (← grouped? Numeral.isDigit digits)
      pure (if isBelow then -size else size)
    | [] => pure 0
  let x := scaled (whole ++ fraction) (exponent - fraction.length)
  if x.isInf && !isNegative then none
  return signed x

/-! ## Dates and times -/

/-- Takes two digits whose value lies within bounds. -/
def twoDigits? (least most : Nat) : List Char → Option (Nat × List Char)
  | a :: b :: rest =>
    let n := Numeral.ofDigits [a, b]
    if Numeral.isDigit a && Numeral.isDigit b && least ≤ n && n ≤ most then some (n, rest) else none
  | _ => none

/-- Takes a given character. -/
def mark? (mark : Char) : List Char → Option (List Char)
  | c :: rest => if c = mark then some rest else none
  | [] => none

/-- What follows a date. -/
def afterDate? (word : List Char) : Option (List Char) := do
  let (century, word) ← twoDigits? 0 99 word
  let (year, word) ← twoDigits? 0 99 word
  let (month, word) ← twoDigits? 1 12 (← mark? '-' word)
  let (_, word) ← twoDigits? 1 (Instant.daysInMonth (century * 100 + year) month) (← mark? '-' word)
  return word

/-- What follows a time of day. -/
def afterTime? (word : List Char) : Option (List Char) := do
  let (_, word) ← twoDigits? 0 23 word
  let (_, word) ← twoDigits? 0 59 (← mark? ':' word)
  let (_, word) ← twoDigits? 0 60 (← mark? ':' word)
  match word with
  | '.' :: digits =>
    if (digits.takeWhile Numeral.isDigit).isEmpty then none
    else return digits.dropWhile Numeral.isDigit
  | word => return word

/-- Whether a word is the difference between a local time and universal time, or empty. -/
def isOffset : List Char → Bool
  | [] | ['Z'] | ['z'] => true
  | sign :: word => (sign == '+' || sign == '-') && (do
    let (_, word) ← twoDigits? 0 23 word
    let (_, word) ← twoDigits? 0 59 (← mark? ':' word)
    if word.isEmpty then some () else none).isSome

/-- Whether a word is a time of day that belongs to a date. -/
def isTimeOfDate (word : List Char) : Bool := (afterTime? word).any isOffset

/-- Whether a word is a date, a time, or both. -/
def isDate (word : List Char) : Bool :=
  match afterDate? word with
  | some [] => true
  | some (mark :: time) => (mark == 'T' || mark == 't') && isTimeOfDate time
  | none => afterTime? word == some []

/-- A date as data. -/
def dateData (words : List Char) : Data := .object [("datetime", .text (String.ofList words))]

/-! ## Words -/

/-- The value that a word stands for. -/
def word? (word : List Char) : Option Data :=
  if word = "true".toList then some (.bool true)
  else if word = "false".toList then some (.bool false)
  else if isDate word then some (dateData word)
  else ((float? word).map .float).orElse fun _ => (integer? word).map .int

/-- Takes an unquoted value. -/
def scalar? (text : List Char) : Option (Data × List Char) := do
  let (word, rest) := text.span isWordChar
  let value ← word? word
  match afterDate? word, rest with
  | some [], ' ' :: more =>
    let (time, after) := more.span isWordChar
    if isTimeOfDate time then return (dateData (word ++ ' ' :: time), after)
    else return (value, rest)
  | _, _ => return (value, rest)

end CallTrace.Toml
