import CallTrace.Script.Fault

/-!
# Tokens of a script

A script is read into names, words with a meaning, literals and symbols. Some words and symbols are
reserved: they mean nothing, and are no names either.
-/

namespace CallTrace.Script

/-- A token. -/
inductive Token where
  | name (text : String)
  | keyword (text : String)
  | reserved (text : String)
  | symbol (text : String)
  | int (value : Int)
  | float (value : Float)
  | char (value : Char)
  | string (value : String)
  /-- A text up to a block that is embedded in it. -/
  | template (value : String)
  /-- What cannot be read as a token. -/
  | malformed (fault : Fault)
  | endOfScript
  deriving Repr, BEq

namespace Token

/-- The longest text that a script may form, in bytes. -/
def maxTextLength : Nat := 10000

/-- Whether a character can start a name. -/
def startsName (c : Char) : Bool := c.isAlpha || c == '_'

/-- Whether a character can stand in a name. -/
def inName (c : Char) : Bool := c.isAlphanum || c == '_'

/-- The words that have a meaning. -/
def keywords : List String :=
  ["true", "false", "let", "const", "if", "else", "switch", "do", "while", "until", "loop", "for",
    "in", "continue", "break", "return", "throw", "try", "catch", "import", "export", "as", "fn",
    "private", "_"]

/-- The reserved words that name a function which can be called. -/
def callable : List String :=
  ["print", "debug", "type_of", "eval", "Fn", "call", "curry", "is_def_var", "is_def_fn",
    "is_shared"]

/-- The reserved words that name a method. -/
def methods : List String := ["type_of", "call", "curry", "is_shared"]

/-- The reserved words. -/
def reservedWords : List String :=
  callable ++ ["this", "public", "protected", "super", "new", "use", "module", "package", "var",
    "static", "shared", "with", "is", "goto", "match", "case", "default", "void", "null", "nil",
    "spawn", "thread", "go", "sync", "async", "await", "yield"]

/-- The symbols that have a meaning. -/
def symbols : List String :=
  ["**=", "<<=", ">>=", "..=", "()", "+=", "-=", "*=", "/=", "%=", "&=", "|=", "^=", "**", "<<",
    ">>", "..", "==", "=>", "::", "<=", ">=", "!=", "||", "&&", "?.", "??", "?[", "#\x7b", "+", "-",
    "*", "/", ";", ",", ".", "=", ":", "<", ">", "!", "|", "&", "^", "%", "(", ")", "[", "]",
    "\x7b", "\x7d"]

/-- The reserved symbols. -/
def reservedSymbols : List String :=
  ["...", "++", "--", "<|", "!.", "|>", "#!", "#", "~", "@", "$", "?"]

/-- Symbols of other languages, with what they should be. -/
def foreignSymbols : List (String × String) :=
  [("===", "'===' is not a valid operator. This is not JavaScript! Should it be '=='?"),
    ("!==", "'!==' is not a valid operator. This is not JavaScript! Should it be '!='?"),
    ("->", "'->' is not a valid symbol. This is not C or C++!"),
    ("<-", "'<-' is not a valid symbol. This is not Go! Should it be '<='?"),
    (":=", "':=' is not a valid assignment operator. This is not Go or Pascal! "
      ++ "Should it be simply '='?"),
    (":;", "':;' is not a valid symbol. Should it be '::'?"),
    ("::<", "'::<>' is not a valid symbol. This is not Rust! Should it be '::'?"),
    ("(*", "'(* .. *)' is not a valid comment format. This is not Pascal! "
      ++ "Should it be '/* .. */'?"),
    ("*)", "'(* .. *)' is not a valid comment format. This is not Pascal! "
      ++ "Should it be '/* .. */'?"),
    ("# \x7b", "'#' is not a valid symbol. Should it be '#\x7b'?")]

/-- The token that a word is. -/
def ofWord (text : String) : Token :=
  if keywords.contains text then keyword text
  else if reservedWords.contains text then reserved text
  else if isName text.toList then name text
  else malformed (.badName text)

/-- The token that a symbol of some length at the front of a text is. -/
def ofSymbol? (text : List Char) (length : Nat) : Option Token :=
  let front := String.ofList (text.take length)
  if front.length ≠ length then none
  else if symbols.contains front then some (symbol front)
  else if reservedSymbols.contains front then some (reserved front)
  else (foreignSymbols.lookup front).map fun advice => malformed (.misplaced advice)

/-- The token as it stands in a script, where this does not depend on its value. -/
def shown : Token → String
  | name text | keyword text | reserved text | symbol text => text
  | _ => ""

end Token

end CallTrace.Script
