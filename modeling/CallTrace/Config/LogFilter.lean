import CallTrace.Config.FieldPattern

/-!
# Log filters

A log filter lists directives, separated by commas. A directive is a level, or it names a part of
the program and may go on with a span in brackets and with a level after an equals sign. A span can
ask for a field in braces, whose value is a number, a truth value or a pattern:

```
info,network=debug,storage[read{id=4.}]=trace
```
-/

namespace CallTrace.LogFilter

/-- What is wrong with a filter. -/
inductive Fault where
  | unknownLevel
  | unusablePattern (fault : FieldPattern.Fault)
  | malformed
  deriving DecidableEq, Repr

/-- The wording of a fault. -/
def Fault.message : Fault → String
  | unknownLevel => "error parsing level filter: expected one of \"off\", \"error\", \"warn\", "
    ++ "\"info\", \"debug\", \"trace\", or a number 0-5"
  | unusablePattern fault => "invalid field filter: " ++ fault.message
  | malformed => "invalid filter directive"

/-- The names of the levels, whose numbers are their positions. -/
def levels : List String := ["off", "error", "warn", "info", "debug", "trace"]

/-- Whether a text is a level: its number, or its name in letters of either case. -/
def isLevel (text : List Char) : Bool :=
  let digits := match text with
    | '+' :: rest => rest
    | rest => rest
  (!digits.isEmpty && digits.all Numeral.isDigit && Numeral.ofDigits digits < levels.length)
    || levels.contains (String.ofList (text.map Char.toLower))

/-- Whether a character can start the name of a part of the program. -/
def startsName (c : Char) : Bool := Text.isAlphanumeric c || c == '-' || c == ':' || c == '_'

/-- Whether a text is a number without a sign. -/
def isNumber (text : List Char) : Bool :=
  let (whole, rest) := text.span Numeral.isDigit
  let (fraction, rest) : List Char × List Char := match rest with
    | '.' :: rest => rest.span Numeral.isDigit
    | rest => ([], rest)
  let isExponent : Bool := match rest with
    | [] => true
    | mark :: rest =>
      let digits := match rest with
        | '+' :: rest | '-' :: rest => rest
        | rest => rest
      mark.toLower == 'e' && !digits.isEmpty && digits.all Numeral.isDigit
  (!(whole ++ fraction).isEmpty && isExponent)
    || ["inf", "infinity", "nan"].contains (String.ofList (text.map Char.toLower))

/-! ## Directives

Where the parts of a directive are is found in the directive without the blanks around it, and what
they say is taken from the same bytes of the whole directive. So blanks in front of a directive
shift the texts of its parts, and blanks after it belong to its level.
-/

/-- A directive, with and without the blanks around it. -/
structure Directive where
  whole : List Char
  trimmed : List Char
  deriving DecidableEq, Repr

/-- The length of a text in bytes. -/
def byteLength : List Char → Nat
  | [] => 0
  | c :: rest => c.utf8Size + byteLength rest

/-- A text without so many bytes at its start, unless that cuts a character. -/
def dropBytes? : Nat → List Char → Option (List Char)
  | 0, text => some text
  | _ + 1, [] => none
  | n + 1, c :: rest => if c.utf8Size ≤ n + 1 then dropBytes? (n + 1 - c.utf8Size) rest else none

/-- So many bytes at the start of a text, unless that cuts a character. -/
def takeBytes? : Nat → List Char → Option (List Char)
  | 0, _ => some []
  | _ + 1, [] => none
  | n + 1, c :: rest =>
    if c.utf8Size ≤ n + 1 then (takeBytes? (n + 1 - c.utf8Size) rest).map (c :: ·) else none

namespace Directive

/-- A directive with its blanks. -/
def ofText (whole : List Char) : Directive := ⟨whole, Text.trimChars whole⟩

/-- What the whole directive has from the place on where a rest of the trimmed one starts. -/
def textFrom? (directive : Directive) (rest : List Char) : Option (List Char) :=
  dropBytes? (byteLength directive.trimmed - byteLength rest) directive.whole

/-- What the whole directive has between the places where two rests of the trimmed one start. -/
def textBetween? (directive : Directive) (rest after : List Char) : Option (List Char) := do
  takeBytes? (byteLength rest - byteLength after) (← directive.textFrom? rest)

/-- Checks what follows a name or a span: nothing, or a level that may be left out. -/
def checkLevel (directive : Directive) : List Char → Except Fault Unit
  | [] => return
  | '=' :: level =>
    match directive.textFrom? level with
    | none => throw .malformed
    | some level => if level.isEmpty || isLevel level then return else throw .unknownLevel
  | _ => throw .malformed

/-- Checks a field. A value is a pattern unless it is a number; without a sign numbers are patterns
as well. -/
def checkField (field : List Char) : Except Fault Unit :=
  match Text.splitBy (· == '=') field with
  | _ :: value :: _ =>
    if value.head? == some '+' && isNumber (value.drop 1) then return
    else (FieldPattern.check value).mapError .unusablePattern
  | _ => return

/-- Checks a span after its opening bracket. -/
def checkSpan (directive : Directive) (text : List Char) : Except Fault Unit := do
  match text.dropWhile fun c => c != ']' && c != '\x7b' with
  | ']' :: rest => directive.checkLevel rest
  | '\x7b' :: field =>
    let after := field.dropWhile (· != '\x7d')
    if after.isEmpty || byteLength after = byteLength field then throw .malformed
    match directive.textBetween? field after with
    | none => throw .malformed
    | some field => checkField field
    match after with
    | _ :: ']' :: rest => directive.checkLevel rest
    | _ => throw .malformed
  | _ => throw .malformed

/-- Checks a directive. -/
def check (directive : Directive) : Except Fault Unit :=
  match directive.trimmed with
  | '[' :: rest => directive.checkSpan rest
  | c :: rest =>
    if !startsName c then throw .malformed
    else
      match rest.dropWhile fun c => c != '=' && c != '[' with
      | '[' :: rest => directive.checkSpan rest
      | rest => directive.checkLevel rest
  | [] => throw .malformed

end Directive

/-- Checks a filter. -/
def check (filter : String) : Except Fault Unit :=
  ((Text.splitBy (· == ',') filter.toList).filter (!·.isEmpty)).forM fun directive =>
    (Directive.ofText directive).check

end CallTrace.LogFilter
