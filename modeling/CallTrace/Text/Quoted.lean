import CallTrace.Numeral
import CallTrace.Text.Hidden

/-!
# Quoted texts

A text between double quotes, in the form in which messages show it. A quote, a backslash and the
common controls are escaped with a backslash; a character that is not shown as itself is spelled by
its number in braces.
-/

namespace CallTrace.Text

/-- The form of a character within a quoted text. -/
def quotedChar (c : Char) : String :=
  match c with
  | '"' => "\\\""
  | '\\' => "\\\\"
  | '\n' => "\\n"
  | '\r' => "\\r"
  | '\t' => "\\t"
  | '\x00' => "\\0"
  | c =>
    if isHidden c then "\\u\x7b" ++ Numeral.lowerHex 1 c.toNat ++ "\x7d" else c.toString

/-- A text between quotes. -/
def quoted (text : String) : String :=
  "\"" ++ String.join (text.toList.map quotedChar) ++ "\""

end CallTrace.Text
