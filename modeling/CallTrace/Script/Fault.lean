import CallTrace.Script.Position

/-!
# Faults of scripts

Why a script is not well formed, and where this shows.
-/

namespace CallTrace.Script

/-- Whether a text is a name: letters, digits and underscores, with a letter before the first
digit. -/
def isName (text : List Char) : Bool :=
  let rest := text.dropWhile (· == '_')
  rest.head?.any Char.isAlpha && rest.all fun c => c.isAlphanum || c == '_'

/-- Why a script is not well formed. -/
inductive Fault where
  /-- A token or a character that nothing can be begun with. -/
  | unexpected (text : String)
  | badEscape (text : String)
  | badNumber (digits : String)
  | badCharacter (text : String)
  | badName (text : String)
  | openText
  | longText (limit : Nat)
  /-- A symbol that means nothing here; the advice says what may be meant. -/
  | misplaced (advice : String)
  | unknownOperator (symbol : String)
  | reserved (text : String)
  | incomplete
  | noVariable
  | noProperty
  | missing (token purpose : String)
  | noFunctionName
  | noParameters (function : String)
  | noBody (function : String)
  | repeatedParameter (function parameter : String)
  | repeatedFunction (function : String) (parameters : Nat)
  | innerFunction
  | strayBreak
  /-- A block stands where an expression of some kind has to stand. -/
  | noExpression (kind : String)
  | notBoolean (kind : String)
  /-- A value is assigned where it has to be compared. -/
  | comparisonMeant
  | constantAssigned (name : Option String)
  | notAssignable
  /-- A literal is no position in a list, or no list. -/
  | badIndex (reason : String)
  | tooDeep
  deriving DecidableEq, Repr

namespace Fault

/-- The wording of a fault. -/
def message : Fault → String
  | unexpected text => "Unexpected '" ++ text ++ "'"
  | badEscape text => "Invalid escape sequence: '" ++ text ++ "'"
  | badNumber digits => "Invalid number: '" ++ digits ++ "'"
  | badCharacter text => "Invalid character: '" ++ text ++ "'"
  | badName text => "Variable name is not proper: '" ++ text ++ "'"
  | openText => "Open string is not terminated"
  | longText limit =>
    "Length of string literal exceeds the maximum limit (" ++ toString limit ++ ")"
  | misplaced advice => advice
  | unknownOperator symbol => "Unknown operator: '" ++ symbol ++ "'"
  | reserved text =>
    "'" ++ text
      ++ (if isName text.toList then "' is a reserved keyword" else "' is a reserved symbol")
  | incomplete => "Script is incomplete"
  | noVariable => "Expecting name of a variable"
  | noProperty => "Expecting name of a property"
  | missing token purpose => "Expecting '" ++ token ++ "' " ++ purpose
  | noFunctionName => "Expecting function name in function declaration"
  | noParameters function => "Expecting parameters for function " ++ function
  | noBody function => "Expecting body statement block for function " ++ function
  | repeatedParameter function parameter =>
    "Duplicated parameter " ++ parameter ++ " for function " ++ function
  | repeatedFunction function 0 => "Function " ++ function ++ " already exists"
  | repeatedFunction function 1 =>
    "Function " ++ function ++ " with 1 parameter already exists"
  | repeatedFunction function parameters =>
    "Function " ++ function ++ " with " ++ toString parameters ++ " parameters already exists"
  | innerFunction => "Function definitions must be at global level and cannot be inside a block or "
    ++ "another function"
  | strayBreak => "Break statement should only be used inside a loop"
  | noExpression kind => "Expecting " ++ kind ++ " expression"
  | notBoolean kind => "Expecting a boolean expression, not " ++ kind
  | comparisonMeant => "Possibly a typo of '=='?"
  | constantAssigned none => "Cannot assign to a constant value"
  | constantAssigned (some name) => "Cannot assign to constant " ++ name
  | notAssignable => "Expression cannot be assigned to"
  | badIndex reason => reason
  | tooDeep => "Expression exceeds maximum complexity"

end Fault

/-- A fault and the place where it shows. -/
structure Malformed where
  fault : Fault
  position : Position
  deriving DecidableEq, Repr

/-- The wording of a fault with its place. -/
def Malformed.message (malformed : Malformed) : String :=
  malformed.fault.message ++ " (" ++ malformed.position.shown ++ ")"

end CallTrace.Script
