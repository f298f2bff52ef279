import CallTrace.Script.Lexer
import CallTrace.Script.Syntax

/-!
# Reading a script

Statements and expressions are read from tokens by descent. A statement ends at a semicolon, at the
end of its block, or by itself when it ends with a block. Every step down is counted, and a script
that goes too deep is refused; operators, links of a chain and positions after one another go deeper
as well. The first fault that shows is the one that is told.
-/

namespace CallTrace.Script.Parser

/-- What is left of a script, and what has been defined. -/
structure Input where
  lexer : Lexer
  /-- A token that has been looked at and not taken. -/
  ahead : Option (Token × Position) := none
  /-- The variables in reach, innermost first, and whether they are constants. -/
  scope : List (String × Bool) := []
  /-- The functions, in reverse. -/
  functions : List Function := []

/-- A reader of the front of a script. -/
abbrev Reader := StateT Input (Except Malformed)

/-- Refuses the script. -/
def refuse {α : Type} (fault : Fault) (position : Position) : Reader α :=
  throw ⟨fault, position⟩

/-- The next token, which is left where it is. -/
def peek : Reader (Token × Position) := do
  let input ← get
  match input.ahead with
  | some found => return found
  | none =>
    let (token, position, lexer) := input.lexer.next
    set { input with lexer, ahead := some (token, position) }
    return (token, position)

/-- Takes the next token. -/
def take : Reader (Token × Position) := do
  let found ← peek
  modify ({ · with ahead := none })
  return found

/-- Takes the next part of a text that is put together. -/
def takeText : Reader (Token × Position) := do
  let input ← get
  let (token, position, lexer) := input.lexer.nextText
  set { input with lexer, ahead := none }
  return (token, position)

/-- Takes the next token if it is this one. -/
def accept (token : Token) : Reader Bool := do
  if (← peek).1 == token then
    let _ ← take
    return true
  else return false

/-- Whether the next token is one of these symbols. -/
def isNext (symbols : List String) : Reader Bool := do
  match (← peek).1 with
  | .symbol text => return symbols.contains text
  | _ => return false

/-- Demands a token for a purpose, and tells another fault if the next token is malformed. -/
def demand (symbol purpose : String) : Reader Unit := do
  match ← take with
  | (.malformed fault, position) => refuse fault position
  | (token, position) =>
    if token == .symbol symbol then return else refuse (.missing symbol purpose) position

/-- How far statements and expressions may be nested. -/
def maxLevel : Nat := 64

/-- Where in a script something stands. -/
structure Context where
  level : Nat := 0
  position : Position := { column := 0 }
  /-- Outside every block. -/
  isGlobal : Bool := true
  inLoop : Bool := false
  inFunction : Bool := false
  deriving DecidableEq, Repr

namespace Context

/-- One level deeper. -/
def deeper (context : Context) : Reader Context :=
  if maxLevel ≤ context.level then refuse .tooDeep context.position
  else return { context with level := context.level + 1 }

/-- The context at another place. -/
def at_ (context : Context) (position : Position) : Context := { context with position }

end Context

/-- An expression, where it starts, and where its operator or name stands. -/
structure Phrase where
  expr : Expr
  start : Position
  position : Position
  /-- Where the first method of a chain is called, to which nothing can be assigned. -/
  call : Option Position := none

/-- An expression of a single token. -/
def Phrase.ofToken (expr : Expr) (position : Position) : Phrase :=
  { expr, start := position, position }

/-! ## What literals are good for -/

/-- What a literal is called that has no truth. -/
def literalKind? : Expr → Option String
  | .text _ | .template _ => some "a string"
  | .char _ => some "a character"
  | .int _ => some "a number"
  | .float _ => some "a floating-point number"
  | .list _ => some "an array"
  | .unit => some "()"
  | _ => none

/-- Refuses a literal where a truth is needed. -/
def checkBoolean (phrase : Phrase) : Reader Unit :=
  match literalKind? phrase.expr with
  | some kind => refuse (.notBoolean kind) phrase.start
  | none => return

/-- Why a literal cannot be a position in a list or a text. -/
def badPosition? : Expr → Option String
  | .text _ | .template _ =>
    some "Array, string or bit-field expects numeric index, not a string"
  | .float _ => some "Array, string or bit-field expects integer index, not a float"
  | .char _ => some "Array, string or bit-field expects integer index, not a character"
  | .unit => some "Array, string or bit-field expects integer index, not ()"
  | .bool _ | .binary .and .. | .binary .or .. =>
    some "Array, string or bit-field expects integer index, not a boolean"
  | _ => none

/-- Refuses positions that make no sense with the literals at hand. -/
def checkIndex (list position : Phrase) : Reader Unit :=
  match list.expr with
  | .list _ | .text _ | .template _ | .int _ =>
    match badPosition? position.expr with
    | some reason => refuse (.badIndex reason) position.start
    | none => return
  | .float _ | .char _ | .bool _ | .unit | .binary .and .. | .binary .or .. =>
    refuse (.badIndex "Only arrays, object maps and strings can be indexed") list.start
  | _ => return

mutual

/-- Whether an expression is made of literals alone. -/
def isConstant : Expr → Bool
  | .unit | .bool _ | .int _ | .float _ | .char _ | .text _ => true
  | .template parts | .list parts => areConstant parts
  | _ => false

/-- Whether all expressions are made of literals alone. -/
def areConstant : List Expr → Bool
  | [] => true
  | part :: parts => isConstant part && areConstant parts

end

/-- The variable that a chain of properties and positions starts from. -/
def root? : Expr → Option String
  | .variable_ name => some name
  | .index list _ => root? list
  | .property receiver _ => root? receiver
  | .method receiver .. => root? receiver
  | _ => none

/-- Whether an expression goes on from another one by a position, a property or a method. -/
def isChain : Expr → Bool
  | .index .. | .property .. | .method .. => true
  | _ => false

/-- Refuses to assign to an expression that holds no value. -/
def checkTarget (target : Phrase) (op : Option BinaryOp) (position : Position) : Reader Unit := do
  if isConstant target.expr then refuse (.constantAssigned none) target.start
  match target.expr with
  | .variable_ name =>
    if (← get).scope.lookup name == some true then
      refuse (.constantAssigned (some name)) target.position
  | .binary .and .. | .binary .or .. | .binary .coalesce .. =>
    if op.isNone then refuse .comparisonMeant position
    else refuse .notAssignable target.position
  | expr =>
    if !isChain expr then refuse .notAssignable target.position
    else
      match target.call, root? expr with
      | some call, _ => refuse .notAssignable call
      | none, some _ => return
      | none, none => refuse .notAssignable target.start

/-! ## Operators -/

/-- The operators between operands, with how tightly they bind. -/
def operators : List (String × Nat × BinaryOp) :=
  [("||", 30, .or), ("|", 30, .bitOr), ("^", 30, .bitXor), ("&&", 60, .and), ("&", 60, .bitAnd),
    ("==", 90, .eq), ("!=", 90, .ne), ("!in", 110, .notIn), ("<", 130, .lt), ("<=", 130, .le),
    (">", 130, .gt), (">=", 130, .ge), ("??", 135, .coalesce), ("..", 140, .range),
    ("..=", 140, .rangeTo), ("+", 150, .add), ("-", 150, .sub), ("*", 180, .mul), ("/", 180, .div),
    ("%", 180, .rem), ("**", 190, .power), ("<<", 210, .shiftLeft), (">>", 210, .shiftRight)]

/-- The operators that are combined with an assignment. -/
def assignments : List (String × BinaryOp) :=
  [("+=", .add), ("-=", .sub), ("*=", .mul), ("/=", .div), ("%=", .rem), ("**=", .power),
    ("<<=", .shiftLeft), (">>=", .shiftRight), ("&=", .bitAnd), ("|=", .bitOr), ("^=", .bitXor)]

/-- How tightly an operator binds whose right operand goes on with the same operator. -/
def rightwards : Nat := 190

/-- The operator that the next token is. A reserved symbol cannot be one. -/
def nextOperator : Reader (Option (Nat × BinaryOp)) := do
  match ← peek with
  | (.symbol text, _) => return operators.lookup text
  | (.keyword "in", _) => return some (110, .isIn)
  | (.reserved text, position) =>
    if isName text.toList then return none else refuse (.unknownOperator text) position
  | _ => return none

/-! ## Expressions and statements -/

/-- The fault of a call whose arguments do not end. -/
def unclosedCall (name : String) : Fault :=
  .missing ")" ("to close the arguments list of this function call '" ++ name ++ "'")

/-- Takes the name of a variable. -/
def variableName : Reader String := do
  match ← take with
  | (.name name, _) => return name
  | (.reserved text, position) =>
    refuse (if isName text.toList then .reserved text else .noVariable) position
  | (.malformed fault, position) => refuse fault position
  | (_, position) => refuse .noVariable position

/-- Refuses a block where a condition has to stand. -/
def noBlock : Reader Unit := do
  match ← peek with
  | (.symbol "\x7b", position) => refuse (.noExpression "a boolean") position
  | _ => return

/-- Refuses an assignment after a condition. -/
def noAssignment : Reader Unit := do
  match ← peek with
  | (.symbol "=", position) => refuse .comparisonMeant position
  | _ => return

/-- Ends a statement. One that stands alone needs no semicolon in front of the next one. -/
def endStatement (standsAlone : Bool) (isEnd : Token → Bool) : Reader Unit := do
  match ← peek with
  | (.symbol ";", _) => let _ ← take
  | (token, position) =>
    if standsAlone || isEnd token then return
    else
      match token with
      | .malformed fault => refuse fault position
      | _ => refuse (.missing ";" "to terminate this statement") position

mutual

/-- Reads an expression. -/
def expression (fuel : Nat) (context : Context) : Reader Phrase :=
  match fuel with
  | 0 => refuse .tooDeep context.position
  | fuel + 1 => do
    let context ← context.deeper
    let context := context.at_ (← peek).2
    let left ← operand fuel context
    operations fuel context 1 left

/-- Reads operators and their right operands after a left operand, as long as they bind more tightly
than the operator in front. -/
def operations (fuel : Nat) (context : Context) (bound : Nat) (left : Phrase) : Reader Phrase :=
  match fuel with
  | 0 => refuse .tooDeep context.position
  | fuel + 1 => do
    match ← nextOperator with
    | none => return left
    | some (strength, op) =>
      if strength < bound || (strength == bound && strength != rightwards) then return left
      let (_, position) ← take
      let right ← operand fuel context
      let right ← match ← nextOperator with
        | some (next, _) =>
          if strength < next || (strength == next && strength == rightwards) then
            operations fuel context strength right
          else pure right
        | none => pure right
      let context := (← context.deeper).at_ position
      if op == .and || op == .or then
        checkBoolean left
        checkBoolean right
      operations fuel context bound
        { expr := .binary op left.expr right.expr, start := left.start, position }

/-- Reads an operand with the operators in front of it. -/
def operand (fuel : Nat) (context : Context) : Reader Phrase :=
  match fuel with
  | 0 => refuse .tooDeep context.position
  | fuel + 1 => do
    let (token, position) ← peek
    let context := context.at_ position
    let prefixed (op : UnaryOp) (literal : Expr → Option Expr) : Reader Phrase := do
      let _ ← take
      let inner ← operand fuel (← context.deeper)
      return .ofToken ((literal inner.expr).getD (.unary op inner.expr)) position
    match token with
    | .symbol "-" => prefixed .negate fun
      | .int value => some (.int (-value))
      | .float value => some (.float (-value))
      | _ => none
    | .symbol "+" => prefixed .plus fun
      | .int value => some (.int value)
      | .float value => some (.float value)
      | _ => none
    | .symbol "!" => prefixed .not fun _ => none
    | .endOfScript => refuse .incomplete position
    | _ => primary fuel context

/-- Reads an operand without operators. -/
def primary (fuel : Nat) (context : Context) : Reader Phrase :=
  match fuel with
  | 0 => refuse .tooDeep context.position
  | fuel + 1 => do
    let (token, position) ← peek
    let context := context.at_ position
    let literal (expr : Expr) : Reader Phrase := do
      let _ ← take
      return .ofToken expr position
    let value : Phrase ← match token with
      | .endOfScript => refuse .incomplete position
      | .malformed fault => refuse fault position
      | .symbol "()" => literal .unit
      | .int value => literal (.int value)
      | .float value => literal (.float value)
      | .char value => literal (.char value)
      | .string value => literal (.text value)
      | .keyword "true" => literal (.bool true)
      | .keyword "false" => literal (.bool false)
      | .template value =>
        let _ ← take
        let parts ← template fuel (← context.deeper) [.text value]
        pure (.ofToken (.template parts) position)
      | .symbol "(" =>
        let context ← context.deeper
        let _ ← take
        if ← accept (.symbol ")") then pure (.ofToken .unit position)
        else
          let inner ← expression fuel (← context.deeper)
          demand ")" "for a matching ( in this expression"
          pure inner
      | .symbol "[" =>
        let context ← (← context.deeper).deeper
        let _ ← take
        pure (.ofToken (.list (← elements fuel context [])) position)
      | .symbol "\x7b" => pure (.ofToken (.block (← block fuel (← context.deeper))) position)
      | .keyword "if" => pure (.ofToken (← branch fuel (← context.deeper)) position)
      | .keyword "while" | .keyword "loop" =>
        pure (.ofToken (.block [← repetition fuel (← context.deeper)]) position)
      | .name name => literal (.variable_ name)
      | .reserved text =>
        let _ ← take
        if Token.callable.contains text && (← isNext ["(", "()", "!"]) then
          pure (.ofToken (.variable_ text) position)
        else if text == "this" then
          if context.inFunction then pure (.ofToken (.variable_ text) position)
          else refuse (.misplaced "'this' can only be used in functions") position
        else refuse (.reserved text) position
      | token => refuse (.unexpected token.shown) position
    links fuel context value

/-- Reads what follows an operand: calls, properties and positions. -/
def links (fuel : Nat) (context : Context) (value : Phrase) : Reader Phrase :=
  match fuel with
  | 0 => refuse .tooDeep context.position
  | fuel + 1 => do
    let (token, position) ← peek
    match token with
    | .symbol "." | .symbol "?." =>
      let _ ← take
      let (name, place) ← match ← peek with
        | (.name name, place) => pure (name, place)
        | (.reserved text, place) =>
          if Token.methods.contains text then pure (text, place) else refuse (.reserved text) place
        | (_, place) => refuse .noProperty place
      let context ← (context.at_ position).deeper
      let _ ← take
      if ← isNext ["::"] then refuse (.unexpected "::") (← peek).2
      if ← isNext ["(", "()"] then
        let arguments ← callArguments fuel (context.at_ place) name
        links fuel context
          { expr := .method value.expr name arguments, start := value.start, position
            call := value.call.or place }
      else
        links fuel context
          { value with expr := .property value.expr name, position }
    | .symbol "[" | .symbol "?[" =>
      let _ ← take
      let found ← index fuel (← (context.at_ position).deeper) value true
      links fuel context { found with position }
    | .symbol "(" | .symbol "()" =>
      match value.expr with
      | .variable_ name =>
        let arguments ← callArguments fuel (context.at_ value.position) name
        links fuel context { value with expr := .call name arguments }
      | _ => return value
    | .symbol "!" =>
      match value.expr with
      | .variable_ name =>
        let _ ← take
        if !(← isNext ["(", "()"]) then
          refuse (.missing "(" "to start arguments list of function call") (← peek).2
        let arguments ← callArguments fuel (context.at_ value.position) name
        links fuel context { value with expr := .call name arguments }
      | _ => return value
    | .symbol "::" =>
      match value.expr with
      | .variable_ _ => refuse (.unexpected "::") position
      | _ => return value
    | _ => return value

/-- Reads the arguments of a call. -/
def callArguments (fuel : Nat) (context : Context) (name : String) : Reader (List Expr) :=
  match fuel with
  | 0 => refuse .tooDeep context.position
  | fuel + 1 => do
    let (opening, _) ← take
    if opening == .symbol "()" then return []
    match ← peek with
    | (.endOfScript, position) => refuse (unclosedCall name) position
    | (.malformed fault, position) => refuse fault position
    | (.symbol ")", _) =>
      let _ ← take
      return []
    | _ => moreArguments fuel (← context.deeper) name []

/-- Reads arguments up to the closing parenthesis. A comma may follow the last one. -/
def moreArguments (fuel : Nat) (context : Context) (name : String) (before : List Expr) :
    Reader (List Expr) :=
  match fuel with
  | 0 => refuse .tooDeep context.position
  | fuel + 1 => do
    let before ← if ← isNext [")"] then pure before
      else pure ((← expression fuel context).expr :: before)
    match ← peek with
    | (.symbol ")", _) =>
      let _ ← take
      return before.reverse
    | (.symbol ",", _) =>
      let _ ← take
      moreArguments fuel context name before
    | (.endOfScript, position) => refuse (unclosedCall name) position
    | (.malformed fault, position) => refuse fault position
    | (_, position) =>
      refuse (.missing "," ("to separate the arguments to function call '" ++ name ++ "'")) position

/-- Reads a position after its opening bracket, and those that follow it. -/
def index (fuel : Nat) (context : Context) (list : Phrase) (isFirst : Bool) : Reader Phrase :=
  match fuel with
  | 0 => refuse .tooDeep context.position
  | fuel + 1 => do
    let position ← expression fuel (← context.deeper)
    if isFirst then checkIndex list position
    let found := { list with expr := .index list.expr position.expr }
    match ← peek with
    | (.symbol "]", _) =>
      let _ ← take
      if ← isNext ["[", "?["] then
        let (_, place) ← take
        index fuel (← (context.at_ place).deeper) found false
      else return found
    | (.malformed fault, place) => refuse fault place
    | (_, place) => refuse (.missing "]" "for a matching [ in this index expression") place

/-- Reads the elements of a list up to the closing bracket. A comma may follow the last one. -/
def elements (fuel : Nat) (context : Context) (before : List Expr) : Reader (List Expr) :=
  match fuel with
  | 0 => refuse .tooDeep context.position
  | fuel + 1 => do
    let unclosed := Fault.missing "]" "to end this array literal"
    match ← peek with
    | (.symbol "]", _) =>
      let _ ← take
      return before.reverse
    | (.endOfScript, position) => refuse unclosed position
    | _ =>
      let item ← expression fuel context
      match ← peek with
      | (.symbol ",", _) => let _ ← take
      | (.symbol "]", _) => pure ()
      | (.endOfScript, position) => refuse unclosed position
      | (.malformed fault, position) => refuse fault position
      | (_, position) =>
        refuse (.missing "," "to separate the items of this array literal") position
      elements fuel context (item.expr :: before)

/-- Reads the blocks of a text that is put together, and the parts between them. -/
def template (fuel : Nat) (context : Context) (before : List Expr) : Reader (List Expr) :=
  match fuel with
  | 0 => refuse .tooDeep context.position
  | fuel + 1 => do
    let before := .block (← block fuel context) :: before
    match ← takeText with
    | (.string value, _) => return (.text value :: before).reverse
    | (.template value, _) => template fuel context (.text value :: before)
    | (.malformed fault, position) => refuse fault position
    | (_, position) => refuse .openText position

/-- Reads a choice. -/
def branch (fuel : Nat) (context : Context) : Reader Expr :=
  match fuel with
  | 0 => refuse .tooDeep context.position
  | fuel + 1 => do
    let context ← context.deeper
    let context := context.at_ (← take).2
    noBlock
    let condition ← expression fuel context
    checkBoolean condition
    noAssignment
    let yes ← block fuel context
    if ← accept (.keyword "else") then
      if (← peek).1 == .keyword "if" then
        return .branch condition.expr yes [.expr (← branch fuel context)]
      else return .branch condition.expr yes (← block fuel context)
    else return .branch condition.expr yes []

/-- Reads a loop, with or without a condition. -/
def repetition (fuel : Nat) (context : Context) : Reader Stmt :=
  match fuel with
  | 0 => refuse .tooDeep context.position
  | fuel + 1 => do
    let context ← context.deeper
    let (token, position) ← take
    if token == .keyword "while" then
      noBlock
      let condition ← expression fuel context
      checkBoolean condition
      noAssignment
      let context := { context with position, inLoop := true }
      return .while_ condition.expr (← block fuel context)
    else return .repeat_ (← block fuel { context with position, inLoop := true })

/-- Reads a block. What it defines is forgotten at its end. -/
def block (fuel : Nat) (context : Context) : Reader (List Stmt) :=
  match fuel with
  | 0 => refuse .tooDeep context.position
  | fuel + 1 => do
    demand "\x7b" "to start a statement block"
    let context ← context.deeper
    let scope := (← get).scope
    let body ← blockRest fuel { context with isGlobal := false } []
    modify ({ · with scope })
    return body

/-- Reads statements up to the end of a block. -/
def blockRest (fuel : Nat) (context : Context) (before : List Stmt) : Reader (List Stmt) :=
  match fuel with
  | 0 => refuse .tooDeep context.position
  | fuel + 1 => do
    match ← peek with
    | (.symbol "\x7d", _) =>
      let _ ← take
      return before.reverse
    | (.endOfScript, position) => refuse (.missing "\x7d" "to terminate this block") position
    | _ =>
      match ← statement fuel context with
      | none => blockRest fuel context before
      | some (statement, standsAlone) =>
        endStatement standsAlone (· == .symbol "\x7d")
        blockRest fuel context (statement :: before)

/-- Reads a statement, and says whether it stands alone. Function definitions and semicolons are no
statements of their own. -/
def statement (fuel : Nat) (context : Context) : Reader (Option (Stmt × Bool)) :=
  match fuel with
  | 0 => refuse .tooDeep context.position
  | fuel + 1 => do
    let (token, position) ← peek
    let context := context.at_ position
    match token with
    | .endOfScript => return none
    | .symbol ";" =>
      let _ ← take
      return none
    | .symbol "\x7b" => return some (.expr (.block (← block fuel (← context.deeper))), true)
    | .keyword "fn" | .keyword "private" =>
      if !context.isGlobal then refuse .innerFunction position
      let _ ← take
      let start ← if token == .keyword "private" then
        match ← take with
        | (.keyword "fn", start) => pure start
        | (_, place) => refuse (.missing "fn" "following 'private'") place
      else pure position
      let function ← function fuel { position := start, isGlobal := false, inFunction := true }
      let isKnown := (← get).functions.any fun known =>
        known.name == function.name && known.parameters.length == function.parameters.length
      if isKnown then refuse (.repeatedFunction function.name function.parameters.length) start
      modify fun input => { input with functions := function :: input.functions }
      return none
    | .keyword "if" => return some (.expr (← branch fuel (← context.deeper)), true)
    | .keyword "while" | .keyword "loop" =>
      return some (← repetition fuel (← context.deeper), true)
    | .keyword "continue" =>
      if !context.inLoop then refuse .strayBreak position
      let _ ← take
      return some (.next, false)
    | .keyword "break" =>
      if !context.inLoop then refuse .strayBreak position
      let _ ← take
      return some (.stop (← optional fuel context), false)
    | .keyword "return" =>
      let _ ← take
      return some (.return_ (← optional fuel context), false)
    | .keyword "throw" =>
      let _ ← take
      return some (.throw_ (← optional fuel context), false)
    | .keyword "let" | .keyword "const" =>
      let context ← context.deeper
      let context := context.at_ (← take).2
      let name ← variableName
      let value ← if ← accept (.symbol "=") then pure (← expression fuel context).expr
        else pure .unit
      let isConst := token == .keyword "const"
      modify fun input => { input with scope := (name, isConst) :: input.scope }
      return some (.define name value, false)
    | _ => return some (← assignment fuel (← context.deeper), false)

/-- Reads the operand of a statement that may stand without one. -/
def optional (fuel : Nat) (context : Context) : Reader Expr :=
  match fuel with
  | 0 => refuse .tooDeep context.position
  | fuel + 1 => do
    match (← peek).1 with
    | .endOfScript | .symbol ";" => return .unit
    | .symbol "\x7d" =>
      if context.isGlobal then return (← expression fuel (← context.deeper)).expr else return .unit
    | _ => return (← expression fuel (← context.deeper)).expr

/-- Reads an expression, and what is assigned to it. -/
def assignment (fuel : Nat) (context : Context) : Reader Stmt :=
  match fuel with
  | 0 => refuse .tooDeep context.position
  | fuel + 1 => do
    let target ← expression fuel context
    let found : Option (Option BinaryOp) := match (← peek).1 with
      | .symbol "=" => some none
      | .symbol text => (assignments.lookup text).map some
      | _ => none
    match found with
    | none => return .expr target.expr
    | some op =>
      let (_, position) ← take
      let context ← context.deeper
      let value ← expression fuel (context.at_ position)
      checkTarget target op position
      return .assign target.expr op value.expr

/-- Reads a function after its first word. -/
def function (fuel : Nat) (context : Context) : Reader Function :=
  match fuel with
  | 0 => refuse .tooDeep context.position
  | fuel + 1 => do
    let context ← context.deeper
    let name ← match ← take with
      | (.name name, _) => pure name
      | (.reserved text, position) => refuse (.reserved text) position
      | (_, position) => refuse .noFunctionName position
    let parameters ← match ← take with
      | (.symbol "()", _) => pure []
      | (.symbol "(", _) => parameters fuel name []
      | (_, position) => refuse (.noParameters name) position
    match ← peek with
    | (.symbol "\x7b", _) =>
      let scope := (← get).scope
      modify ({ · with scope := parameters.map (·, false) })
      let body ← block fuel context
      modify ({ · with scope })
      return { name, parameters, body }
    | (_, position) => refuse (.noBody name) position

/-- Reads the names of parameters up to the closing parenthesis. -/
def parameters (fuel : Nat) (function : String) (before : List String) : Reader (List String) :=
  match fuel with
  | 0 => refuse .tooDeep {}
  | fuel + 1 => do
    match ← take with
    | (.symbol ")", _) => return before.reverse
    | (.name name, position) =>
      if before.contains name then refuse (.repeatedParameter function name) position
      match ← take with
      | (.symbol ")", _) => return (name :: before).reverse
      | (.symbol ",", _) => parameters fuel function (name :: before)
      | (.malformed fault, position) => refuse fault position
      | (_, position) =>
        refuse (.missing "," ("to separate the parameters of function '" ++ function ++ "'"))
          position
    | (.malformed fault, position) => refuse fault position
    | (_, position) =>
      refuse (.missing ")" ("to close the parameters list of function '" ++ function ++ "'"))
        position

end

/-- Reads the statements of a script. -/
def statements (fuel : Nat) (before : List Stmt) : Reader (List Stmt) :=
  match fuel with
  | 0 => refuse .tooDeep {}
  | fuel + 1 => do
    match (← peek).1 with
    | .endOfScript => return before.reverse
    | _ =>
      match ← statement fuel {} with
      | none => statements fuel before
      | some (statement, standsAlone) =>
        endStatement standsAlone (· == .endOfScript)
        statements fuel (statement :: before)

end Parser

/-- The most steps of the descent for each character of a script. -/
def stepsPerCharacter : Nat := 16

/-- Reads a script, or says why it is not well formed. -/
def Program.ofScript (script : String) : Except Malformed Program := do
  let text := script.toList
  let fuel := stepsPerCharacter * (text.length + 4)
  let (body, input) ← (Parser.statements fuel []).run { lexer := { rest := text } }
  return { functions := input.functions.reverse, body }

end CallTrace.Script
