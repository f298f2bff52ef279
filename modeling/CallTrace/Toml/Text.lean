import CallTrace.Numeral

/-!
# Quoted texts in TOML

A text stands between double quotes, where backslashes escape, or between single quotes, where
nothing does. Either kind of quote may be written three times, and the text may then run over
several lines: a line break right after the opening is dropped, every line break counts as a line
feed, and up to two quotes may stand in front of the closing ones. Between three double quotes, a
backslash at the end of a line swallows the break and the blanks after it.
-/

namespace CallTrace.Toml

/-- Whether a character may stand in a line as it is; among the control characters, only a tab
may. -/
def isPlain (c : Char) : Bool := c == '\t' || (' ' ≤ c && c != '\x7f')

/-- The text without the blanks in front. -/
def skipBlanks (text : List Char) : List Char := text.dropWhile fun c => c == ' ' || c == '\t'

/-- The text after the line break in front of it. -/
def afterBreak? : List Char → Option (List Char)
  | '\n' :: rest => some rest
  | '\r' :: '\n' :: rest => some rest
  | _ => none

/-- The text without the blanks and line breaks in front. -/
def skipSpace : List Char → List Char
  | ' ' :: rest => skipSpace rest
  | '\t' :: rest => skipSpace rest
  | '\n' :: rest => skipSpace rest
  | '\r' :: '\n' :: rest => skipSpace rest
  | rest => rest

theorem length_skipSpace_le (text : List Char) : (skipSpace text).length ≤ text.length := by
  fun_induction skipSpace text <;> simp <;> omega

theorem length_skipBlanks_le (text : List Char) : (skipBlanks text).length ≤ text.length :=
  (List.dropWhile_sublist _).length_le

theorem length_afterBreak?_lt {text rest : List Char} (h : afterBreak? text = some rest) :
    rest.length < text.length := by
  unfold afterBreak? at h
  split at h
  · injection h with h
    subst h
    exact Nat.lt_succ_self _
  · injection h with h
    subst h
    simp only [List.length_cons]
    omega
  · injection h

/-! ## Escapes -/

/-- The character with a number given in hexadecimal digits. -/
def numbered? (digits : List Char) : Option Char := do
  let n ← Numeral.ofDigitsIn? 16 digits
  if n.isValidChar then return Char.ofNat n else none

/-- The character that an escape stands for, and how many characters spell it after the
backslash. -/
def escape? : List Char → Option (Char × Nat)
  | 'b' :: _ => some ('\x08', 1)
  | 't' :: _ => some ('\t', 1)
  | 'n' :: _ => some ('\n', 1)
  | 'f' :: _ => some ('\x0c', 1)
  | 'r' :: _ => some ('\r', 1)
  | '"' :: _ => some ('"', 1)
  | '\\' :: _ => some ('\\', 1)
  | 'u' :: rest => (numbered? (rest.take 4)).bind fun c => if rest.length < 4 then none else (c, 5)
  | 'U' :: rest => (numbered? (rest.take 8)).bind fun c => if rest.length < 8 then none else (c, 9)
  | _ => none

/-- What follows a backslash that ends its line. -/
def afterFold? (text : List Char) : Option (List Char) :=
  (afterBreak? (skipBlanks text)).map skipSpace

theorem length_afterFold?_lt {text rest : List Char} (h : afterFold? text = some rest) :
    rest.length < text.length := by
  obtain ⟨mid, hmid, rfl⟩ := Option.map_eq_some_iff.1 h
  have h1 := length_afterBreak?_lt hmid
  have h2 := length_skipBlanks_le text
  have h3 := length_skipSpace_le mid
  omega

/-! ## Readers -/

/-- Takes the rest of a text between double quotes. -/
def basic? (text : List Char) : Option (List Char × List Char) :=
  match text with
  | [] => none
  | '"' :: rest => some ([], rest)
  | '\\' :: rest => do
    let (c, length) ← escape? rest
    let (cs, rest) ← basic? (rest.drop length)
    return (c :: cs, rest)
  | c :: rest => do
    if !isPlain c then none
    let (cs, rest) ← basic? rest
    return (c :: cs, rest)
termination_by text.length
decreasing_by
  all_goals simp only [List.length_cons, List.length_drop]
  all_goals omega

/-- Takes the rest of a text between single quotes. -/
def literal? (text : List Char) : Option (List Char × List Char) :=
  match text.span fun c => isPlain c && c != '\'' with
  | (cs, '\'' :: rest) => some (cs, rest)
  | _ => none

/-- Takes the rest of a text between quotes that are written three times. -/
def lines? (quote : Char) (escapes : Bool) (text : List Char) :
    Option (List Char × List Char) :=
  match text with
  | [] => none
  | c :: rest =>
    let more (cs text : List Char) (_h : text.length < (c :: rest).length) :
        Option (List Char × List Char) := do
      let (others, rest) ← lines? quote escapes text
      return (cs ++ others, rest)
    if c = quote then
      let run := ((c :: rest).takeWhile (· == quote)).length
      if run < 3 then more [c] rest (Nat.lt_succ_self _)
      else if run ≤ 5 then some (List.replicate (run - 3) quote, (c :: rest).drop run)
      else none
    else if escapes && c == '\\' then
      match h : afterFold? rest with
      | some rest' =>
        more [] rest' (Nat.lt_succ_of_lt (length_afterFold?_lt h))
      | none =>
        match escape? rest with
        | some (e, length) =>
          more [e] (rest.drop length) (Nat.lt_succ_of_le (List.drop_sublist length rest).length_le)
        | none => none
    else
      match h : afterBreak? (c :: rest) with
      | some rest' => more ['\n'] rest' (length_afterBreak?_lt h)
      | none => if isPlain c then more [c] rest (Nat.lt_succ_self _) else none
termination_by text.length
decreasing_by exact _h

/-- Takes a text that may run over several lines, after its opening quotes. -/
def block? (quote : Char) (escapes : Bool) (text : List Char) : Option (List Char × List Char) :=
  lines? quote escapes ((afterBreak? text).getD text)

/-- Takes a quoted text. -/
def text? : List Char → Option (String × List Char)
  | '"' :: '"' :: '"' :: rest =>
    (block? '"' true rest).map fun (cs, rest) => (String.ofList cs, rest)
  | '"' :: rest => (basic? rest).map fun (cs, rest) => (String.ofList cs, rest)
  | '\'' :: '\'' :: '\'' :: rest =>
    (block? '\'' false rest).map fun (cs, rest) => (String.ofList cs, rest)
  | '\'' :: rest => (literal? rest).map fun (cs, rest) => (String.ofList cs, rest)
  | _ => none

/-- Takes a quoted text that stays in its line. -/
def lineText? : List Char → Option (String × List Char)
  | '"' :: rest => (basic? rest).map fun (cs, rest) => (String.ofList cs, rest)
  | '\'' :: rest => (literal? rest).map fun (cs, rest) => (String.ofList cs, rest)
  | _ => none

end CallTrace.Toml
