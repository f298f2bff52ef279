import CallTrace.Numeral
import CallTrace.Text.Blank

/-!
# Points in time

A point in time as date and time of day in UTC, its text `2024-01-02T03:04:05.678Z`, and a reader
of such texts. The reader is lenient: blanks may stand between the parts, a blank may stand for the
`T`, and the offset from UTC may be `Z`, `UTC` or hours and minutes with a sign.

The calendar is the Gregorian one, extended to all years. A date is related to the number of days
since the first of March of the year zero, in which leap days come last in their year.
-/

namespace CallTrace

/-- A point in time, in UTC. The second is 60 in a leap second. -/
structure Instant where
  year : Int
  month : Nat
  day : Nat
  hour : Nat
  minute : Nat
  second : Nat
  nanos : Nat
  deriving DecidableEq, Repr, Inhabited

namespace Instant

/-! ## The calendar -/

/-- Whether a year has a 29th of February. -/
def isLeapYear (year : Int) : Bool :=
  year % 4 = 0 && (year % 100 ≠ 0 || year % 400 = 0)

/-- How many days a month has. -/
def daysInMonth (year : Int) (month : Nat) : Nat :=
  match month with
  | 2 => if isLeapYear year then 29 else 28
  | 4 | 6 | 9 | 11 => 30
  | _ => 31

/-- Days from 1 March of the year 0 to a date. -/
def daysOfDate (year : Int) (month day : Nat) : Int :=
  let marchYear := if month ≤ 2 then year - 1 else year
  let marchMonth := if month ≤ 2 then month + 9 else month - 3
  marchYear * 365 + marchYear / 4 - marchYear / 100 + marchYear / 400
    + Int.ofNat ((153 * marchMonth + 2) / 5 + day - 1)

/-- The date that lies so many days after 1 March of the year 0. -/
def dateOfDays (days : Int) : Int × Nat × Nat :=
  let era := days / 146097
  let dayOfEra := (days % 146097).toNat
  let yearOfEra :=
    (dayOfEra - dayOfEra / 1460 + dayOfEra / 36524 - dayOfEra / 146096) / 365
  let dayOfYear := dayOfEra - (365 * yearOfEra + yearOfEra / 4 - yearOfEra / 100)
  let marchMonth := (5 * dayOfYear + 2) / 153
  let day := dayOfYear - (153 * marchMonth + 2) / 5 + 1
  let month := if marchMonth < 10 then marchMonth + 3 else marchMonth - 9
  (Int.ofNat yearOfEra + era * 400 + (if month ≤ 2 then 1 else 0), month, day)

/-- Days from 1 March of the year 0 to 1 January 1970. -/
def epochDays : Int := 719468

/-- The point in time that lies so many seconds after the start of 1970. -/
def ofEpoch (seconds : Int) (nanos : Nat) : Instant :=
  let (year, month, day) := dateOfDays (seconds / 86400 + epochDays)
  let time := (seconds % 86400).toNat
  { year, month, day, hour := time / 3600, minute := time / 60 % 60, second := time % 60, nanos }

/-- The point in time that lies so many minutes earlier. -/
def minusMinutes (t : Instant) (minutes : Int) : Instant :=
  if minutes = 0 then t
  else
    let total :=
      daysOfDate t.year t.month t.day * 1440 + Int.ofNat (t.hour * 60 + t.minute) - minutes
    let (year, month, day) := dateOfDays (total / 1440)
    let time := (total % 1440).toNat
    { t with year, month, day, hour := time / 60, minute := time % 60 }

/-- Whether the fields name a day and a time of day. -/
def isValid (t : Instant) : Bool :=
  -262143 ≤ t.year && t.year ≤ 262142 && 1 ≤ t.month && t.month ≤ 12 && 1 ≤ t.day
    && t.day ≤ daysInMonth t.year t.month && t.hour ≤ 23 && t.minute ≤ 59 && t.second ≤ 60

/-! ## Writing -/

/-- The text of a year: four digits, and a sign where four unsigned digits do not suffice. -/
def yearText (year : Int) : String :=
  if 0 ≤ year && year ≤ 9999 then Numeral.decimal 4 year.toNat
  else (if year < 0 then "-" else "+") ++ Numeral.decimal 4 year.natAbs

/-- The text of a fraction of a second: none, three, six or nine digits. -/
def fractionText (nanos : Nat) : String :=
  if nanos = 0 then ""
  else if nanos % 1000000 = 0 then "." ++ Numeral.decimal 3 (nanos / 1000000)
  else if nanos % 1000 = 0 then "." ++ Numeral.decimal 6 (nanos / 1000)
  else "." ++ Numeral.decimal 9 nanos

/-- The text of a point in time. -/
def toText (t : Instant) : String :=
  yearText t.year ++ "-" ++ Numeral.decimal 2 t.month ++ "-" ++ Numeral.decimal 2 t.day ++ "T"
    ++ Numeral.decimal 2 t.hour ++ ":" ++ Numeral.decimal 2 t.minute ++ ":"
    ++ Numeral.decimal 2 t.second ++ fractionText t.nanos ++ "Z"

/-! ## Reading -/

/-- A reader of the front of a text. -/
abbrev TextReader := StateT (List Char) Option

/-- Skips blanks. -/
def blanks : TextReader Unit := modify Text.trimStart

/-- Reads a character that has to be there. -/
def literal (c : Char) : TextReader Unit := fun text =>
  match text with
  | d :: rest => if c = d then some ((), rest) else none
  | [] => none

/-- Reads at least one and at most `width` digits. -/
def number (width : Nat) : TextReader (List Char) := fun text =>
  let found := (text.take width).takeWhile Numeral.isDigit
  if found.isEmpty then none else some (found, text.drop found.length)

/-- Reads a number after blanks. -/
def numberField (width : Nat) : TextReader Nat := do
  blanks
  return Numeral.ofDigits (← number width)

/-- Reads a year: up to four digits, or a sign and any number of digits. -/
def yearField : TextReader Int := do
  blanks
  match (← get).head? with
  | some '-' =>
    literal '-'
    return -Int.ofNat (Numeral.ofDigits (← number (← get).length))
  | some '+' =>
    literal '+'
    return Int.ofNat (Numeral.ofDigits (← number (← get).length))
  | _ => return Int.ofNat (Numeral.ofDigits (← number 4))

/-- Reads a fraction of a second, if there is one; digits beyond the ninth are ignored. -/
def fractionField : TextReader Nat := do
  if (← get).head? = some '.' then
    literal '.'
    let found ← number 9
    modify (·.dropWhile Numeral.isDigit)
    return Numeral.ofDigits found * Nat.pow 10 (9 - found.length)
  else return 0

/-- Reads exactly two digits. -/
def twoDigits : TextReader Nat := fun text =>
  match text with
  | a :: b :: rest =>
    if Numeral.isDigit a && Numeral.isDigit b then some (Numeral.ofDigits [a, b], rest) else none
  | _ => none

/-- Reads an offset from UTC in minutes. -/
def offsetField : TextReader Int := do
  let text ← get
  if (text.take 3).map Char.toUpper = ['U', 'T', 'C'] then
    set (text.drop 3)
    return 0
  match text.head? with
  | some 'Z' | some 'z' =>
    set (text.drop 1)
    return 0
  | some sign =>
    if sign ≠ '+' && sign ≠ '-' && sign ≠ '−' then failure
    set (text.drop 1)
    let hours ← twoDigits
    modify (·.dropWhile fun c => c = ':' || Text.isBlank c)
    let minutes ← twoDigits
    if 59 < minutes || 23 < hours then failure
    let total := Int.ofNat (hours * 60 + minutes)
    return if sign = '+' then total else -total
  | none => failure

/-- Reads the separator between date and time. -/
def separator : TextReader Unit := fun text =>
  match text with
  | 'T' :: rest | 't' :: rest | ' ' :: rest => some ((), rest)
  | _ => none

/-- Reads a point in time. -/
def reader : TextReader Instant := do
  let year ← yearField
  blanks
  literal '-'
  let month ← numberField 2
  blanks
  literal '-'
  let day ← numberField 2
  separator
  let hour ← numberField 2
  blanks
  literal ':'
  let minute ← numberField 2
  blanks
  literal ':'
  let second ← numberField 2
  let nanos ← fractionField
  blanks
  let offset ← offsetField
  let here : Instant := { year, month, day, hour, minute, second, nanos }
  let t := here.minusMinutes offset
  if here.isValid && t.isValid then return t else failure

/-- Reads a text that is a point in time and nothing else but blanks. -/
def ofText? (text : String) : Option Instant := do
  let (t, rest) ← reader.run text.toList
  if (Text.trimStart rest).isEmpty then some t else none

end Instant

end CallTrace
