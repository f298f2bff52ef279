import CallTrace.Script.Syntax
import CallTrace.Script.Token
import CallTrace.Text.LetterCase

/-!
# Running a script

A script is run with limits: so many operations in all, so many calls within each other, and texts
of so many bytes. What goes beyond a limit fails, as does anything that makes no sense, such as an
unknown name or a position outside a list; why it failed is not kept.

Every step of the evaluator counts as an operation, so that the limit on operations bounds the
descent. Loops are run by `iterate`, which is bounded in the same way.
-/

namespace CallTrace.Script

/-- The value of an expression. -/
inductive Value where
  | unit
  | bool (value : Bool)
  | int (value : Int)
  | float (value : Float)
  | char (value : Char)
  | text (value : String)
  | list (items : List Value)
  /-- The numbers from the first one up to the last one, which may belong to them. -/
  | range (first last : Int) (isClosed : Bool)
  deriving Inhabited

/-- The most operations of a run. -/
def maxOperations : Nat := 10000

/-- The most calls within each other. -/
def maxCalls : Nat := 32

/-- Why an evaluation stops before its end. -/
inductive Stop where
  | failure
  | leaveLoop (value : Value)
  | nextTurn
  | result (value : Value)

/-- The state of a run. -/
structure State where
  /-- The variables in reach, innermost first. -/
  bindings : List (String × Value)
  operations : Nat := 0

/-- An evaluation. -/
abbrev Run := ExceptT Stop (StateM State)

namespace Run

/-- Fails. -/
def fail {α : Type} : Run α := throw .failure

/-- Counts an operation. -/
def tick : Run Unit := do
  let state ← get
  if maxOperations ≤ state.operations then fail
  set { state with operations := state.operations + 1 }

/-- The value of a variable. -/
def lookup (name : String) : Run Value := do
  match (← get).bindings.find? (·.1 = name) with
  | some (_, value) => return value
  | none => fail

/-- Changes the innermost variable with a name. -/
def replace (name : String) (value : Value) :
    List (String × Value) → Option (List (String × Value))
  | [] => none
  | (n, v) :: rest =>
    if n = name then some ((n, value) :: rest)
    else (replace name value rest).map ((n, v) :: ·)

/-- Adds a variable. -/
def define (name : String) (value : Value) : Run Unit :=
  modify fun state => { state with bindings := (name, value) :: state.bindings }

/-- Assigns to a variable. -/
def assign (name : String) (value : Value) : Run Unit := do
  match replace name value (← get).bindings with
  | some bindings => modify fun state => { state with bindings }
  | none => fail

/-- Runs something and forgets the bindings that it added. -/
def enclosed {α : Type} (run : Run α) : Run α := fun state =>
  let (result, after) := run state
  let added := after.bindings.length - state.bindings.length
  (result, { after with bindings := after.bindings.drop added })

end Run

/-! ## Operations on values -/

/-- A text within the limit on texts. -/
def boundedText (text : String) : Run Value :=
  if Token.maxTextLength < text.utf8ByteSize then Run.fail else return .text text

/-- A text within the limit, after another one. Nothing is checked where nothing is put together. -/
def joinTexts (a b : String) : Run Value :=
  if a.isEmpty then return .text b
  else if b.isEmpty then return .text a
  else boundedText (a ++ b)

/-- An integer within 64 bits. -/
def boundedInt (n : Int) : Run Value :=
  if Int64.minValue.toInt ≤ n && n ≤ Int64.maxValue.toInt then return .int n else Run.fail

/-- A power of an integer, within 64 bits. -/
def power (a : Int) (b : Nat) : Run Value :=
  if 64 ≤ b && 1 < a.natAbs then Run.fail
  else if 64 ≤ b then return .int (if b % 2 = 0 then a * a else a)
  else boundedInt (Int.pow a b)

/-- An operation on the bits of two integers. -/
def onBits (op : Int64 → Int64 → Int64) (a b : Int) : Value :=
  .int (op (Int64.ofInt a) (Int64.ofInt b)).toInt

/-- The text of a value within another text. -/
def Value.shown? : Value → Option String
  | .unit => some ""
  | .bool value => some (toString value)
  | .int value => some (toString value)
  | .char value => some value.toString
  | .text value => some value
  | .float _ | .list _ | .range .. => none

/-- Whether two values are equal; values of different kinds are not. -/
def Value.same : Value → Value → Bool
  | .unit, .unit => true
  | .bool a, .bool b => a == b
  | .int a, .int b => a == b
  | .float a, .float b => a == b
  | .char a, .char b => a == b
  | .text a, .text b => a == b
  | _, _ => false

/-- The order of two values of one kind. -/
def Value.order? : Value → Value → Option Ordering
  | .int a, .int b => some (compare a b)
  | .char a, .char b => some (compare a.toNat b.toNat)
  | .text a, .text b => some (compare a b)
  | _, _ => none

/-- Whether two values stand in an order. -/
def ordered (p : Ordering → Bool) (a b : Value) : Run Value :=
  return .bool ((a.order? b).elim false p)

/-- Whether a value is found in another one. -/
def isWithin (a b : Value) : Run Bool :=
  match a, b with
  | .text a, .text b => return 1 < (b.splitOn a).length || a.isEmpty
  | .char a, .text b => return b.contains a
  | a, .list items => return items.any a.same
  | .int a, .range first last isClosed => return first ≤ a && (a < last || (isClosed && a == last))
  | _, _ => Run.fail

/-- Applies an operator to two values. -/
def applyBinary (op : BinaryOp) (a b : Value) : Run Value :=
  match op, a, b with
  | .add, .text a, .text b => joinTexts a b
  | .add, .text a, .char b => boundedText (a.push b)
  | .add, .char a, .text b => boundedText (a.toString ++ b)
  | .add, .text a, .int b => boundedText (a ++ toString b)
  | .add, .text a, .bool b => boundedText (a ++ toString b)
  | .add, .text a, .unit => return .text a
  | .add, .int a, .text b => boundedText (toString a ++ b)
  | .add, .bool a, .text b => boundedText (toString a ++ b)
  | .add, .unit, .text b => return .text b
  | .add, .int a, .int b => boundedInt (a + b)
  | .sub, .int a, .int b => boundedInt (a - b)
  | .mul, .int a, .int b => boundedInt (a * b)
  | .div, .int a, .int b => if b = 0 then Run.fail else boundedInt (a.tdiv b)
  | .rem, .int a, .int b => if b = 0 then Run.fail else boundedInt (a.tmod b)
  | .add, .float a, .float b => return .float (a + b)
  | .sub, .float a, .float b => return .float (a - b)
  | .mul, .float a, .float b => return .float (a * b)
  | .div, .float a, .float b => return .float (a / b)
  | .add, .list a, .list b => return .list (a ++ b)
  | .power, .int a, .int b => if b < 0 then Run.fail else power a b.toNat
  | .bitAnd, .int a, .int b => return onBits (· &&& ·) a b
  | .bitOr, .int a, .int b => return onBits (· ||| ·) a b
  | .bitXor, .int a, .int b => return onBits (· ^^^ ·) a b
  | .bitAnd, .bool a, .bool b => return .bool (a && b)
  | .bitOr, .bool a, .bool b => return .bool (a || b)
  | .bitXor, .bool a, .bool b => return .bool (a != b)
  | .shiftLeft, .int a, .int b =>
    if 0 ≤ b && b < 64 then return onBits (· <<< ·) a b else Run.fail
  | .shiftRight, .int a, .int b =>
    if 0 ≤ b && b < 64 then return onBits (· >>> ·) a b else Run.fail
  | .range, .int a, .int b => return .range a b false
  | .rangeTo, .int a, .int b => return .range a b true
  | .isIn, a, b => return .bool (← isWithin a b)
  | .notIn, a, b => return .bool !(← isWithin a b)
  | .eq, a, b => return .bool (a.same b)
  | .ne, a, b => return .bool (!a.same b)
  | .lt, a, b => ordered (· == .lt) a b
  | .le, a, b => ordered (· != .gt) a b
  | .gt, a, b => ordered (· == .gt) a b
  | .ge, a, b => ordered (· != .lt) a b
  | _, _, _ => Run.fail

/-- Applies an operator to a value. -/
def applyUnary (op : UnaryOp) (a : Value) : Run Value :=
  match op, a with
  | .not, .bool a => return .bool (!a)
  | .negate, .int a => boundedInt (-a)
  | .negate, .float a => return .float (-a)
  | .plus, .int a => return .int a
  | .plus, .float a => return .float a
  | _, _ => Run.fail

/-- The place of an element in a list of some length; a negative position counts from the end. -/
def placeOf? (length : Nat) (position : Int) : Option Nat :=
  let place := if position < 0 then Int.ofNat length + position else position
  if 0 ≤ place && place < length then some place.toNat else none

/-- The element of a list at a position. -/
def elementAt (items : List Value) (position : Int) : Run Value :=
  match (placeOf? items.length position).bind (items[·]?) with
  | some value => return value
  | none => Run.fail

/-- A list with another element at a position. -/
def setElement (list position value : Value) : Run Value :=
  match list, position with
  | .list items, .int position =>
    match placeOf? items.length position with
    | some place => return .list (items.set place value)
    | none => Run.fail
  | _, _ => Run.fail

/-- Applies a position to a value. -/
def applyIndex (a b : Value) : Run Value :=
  match a, b with
  | .list items, .int position => elementAt items position
  | .text text, .int position => elementAt (text.toList.map Value.char) position
  | _, _ => Run.fail

/-- Applies a function that every script can use. -/
def applyBuiltin (name : String) (arguments : List Value) : Run Value :=
  match name, arguments with
  | "to_upper", [.text text] => boundedText (Text.toUpper text)
  | "to_lower", [.text text] => boundedText (Text.toLower text)
  | "split", [.text text, .text separator] => do
    let _ ← boundedText text
    return .list ((text.splitOn separator).map Value.text)
  | "len", [.text text] => return .int text.length
  | "len", [.list items] => return .int items.length
  | "contains", [.text text, .text part] => return .bool (1 < (text.splitOn part).length)
  | "starts_with", [.text text, .text part] => return .bool (text.startsWith part)
  | "ends_with", [.text text, .text part] => return .bool (text.endsWith part)
  | "to_string", [.text text] => return .text text
  | "is_empty", [.text text] => return .bool text.isEmpty
  | "is_empty", [.list items] => return .bool items.isEmpty
  | _, _ => Run.fail

/-- Applies a property of a value. -/
def applyProperty (name : String) (a : Value) : Run Value :=
  match name, a with
  | "len", .text text => return .int text.length
  | "len", .list items => return .int items.length
  | _, _ => Run.fail

/-- The truth of a value. -/
def truth (a : Value) : Run Bool :=
  match a with
  | .bool value => return value
  | _ => Run.fail

/-! ## Evaluation -/

/-- Repeats a turn of a loop until it says that the loop is over. -/
def iterate (turns : Nat) (turn : Run Bool) (state : State) : Except Stop Value × State :=
  match turns with
  | 0 => (.error .failure, state)
  | turns + 1 =>
    match turn state with
    | (.ok true, state) | (.error .nextTurn, state) => iterate turns turn state
    | (.ok false, state) => (.ok .unit, state)
    | (.error (.leaveLoop value), state) => (.ok value, state)
    | (.error stop, state) => (.error stop, state)

/-- Calls a function within so many other calls: its body sees its parameters and nothing else. -/
def callFunction (depth : Nat) (function : Function) (arguments : List Value)
    (body : List Stmt → Run Value) : Run Value := fun state =>
  if maxCalls ≤ depth then (.error .failure, state)
  else
    let inner := { state with bindings := function.parameters.zip arguments }
    let (result, after) := body function.body inner
    let after := { after with bindings := state.bindings }
    match result with
    | .error (.result value) => (.ok value, after)
    | .error _ => (.error .failure, after)
    | .ok value => (.ok value, after)

mutual

/-- The value of an expression within so many calls. -/
def evalExpr (functions : List Function) (fuel depth : Nat) (e : Expr) : Run Value :=
  match fuel with
  | 0 => Run.fail
  | fuel + 1 => do
    Run.tick
    match e with
    | .unit => return .unit
    | .bool value => return .bool value
    | .int value => return .int value
    | .float value => return .float value
    | .char value => return .char value
    | .text value => return .text value
    | .template parts =>
      let values ← evalAll functions fuel depth parts
      match values.mapM Value.shown? with
      | some texts => boundedText (String.join texts)
      | none => Run.fail
    | .list items => return .list (← evalAll functions fuel depth items)
    | .variable_ name => Run.lookup name
    | .unary op operand => applyUnary op (← evalExpr functions fuel depth operand)
    | .binary .or left right =>
      if ← truth (← evalExpr functions fuel depth left) then return .bool true
      return .bool (← truth (← evalExpr functions fuel depth right))
    | .binary .and left right =>
      if ← truth (← evalExpr functions fuel depth left) then
        return .bool (← truth (← evalExpr functions fuel depth right))
      return .bool false
    | .binary .coalesce left right =>
      match ← evalExpr functions fuel depth left with
      | .unit => evalExpr functions fuel depth right
      | value => return value
    | .binary op left right =>
      let a ← evalExpr functions fuel depth left
      let b ← evalExpr functions fuel depth right
      applyBinary op a b
    | .index list position =>
      let a ← evalExpr functions fuel depth list
      let b ← evalExpr functions fuel depth position
      applyIndex a b
    | .call name arguments =>
      let values ← evalAll functions fuel depth arguments
      evalCall functions fuel depth name values
    | .method receiver name arguments =>
      let value ← evalExpr functions fuel depth receiver
      let values ← evalAll functions fuel depth arguments
      evalCall functions fuel depth name (value :: values)
    | .property receiver name => applyProperty name (← evalExpr functions fuel depth receiver)
    | .branch condition yes no =>
      if ← truth (← evalExpr functions fuel depth condition) then
        Run.enclosed (evalBody functions fuel depth yes)
      else Run.enclosed (evalBody functions fuel depth no)
    | .block body => Run.enclosed (evalBody functions fuel depth body)

/-- The values of expressions from left to right. -/
def evalAll (functions : List Function) (fuel depth : Nat) (es : List Expr) : Run (List Value) :=
  match fuel with
  | 0 => Run.fail
  | fuel + 1 =>
    match es with
    | [] => return []
    | e :: rest => do
      let value ← evalExpr functions fuel depth e
      return value :: (← evalAll functions fuel depth rest)

/-- The value of a call. -/
def evalCall (functions : List Function) (fuel depth : Nat) (name : String)
    (arguments : List Value) : Run Value :=
  match fuel with
  | 0 => Run.fail
  | fuel + 1 =>
    match functions.find? fun f => f.name = name && f.parameters.length = arguments.length with
    | some function =>
      callFunction depth function arguments fun body =>
        evalBody functions fuel (depth + 1) body
    | none => applyBuiltin name arguments

/-- The value of the last of some statements. -/
def evalBody (functions : List Function) (fuel depth : Nat) (body : List Stmt) : Run Value :=
  match fuel with
  | 0 => Run.fail
  | fuel + 1 =>
    match body with
    | [] => return .unit
    | [statement] => evalStmt functions fuel depth statement
    | statement :: rest => do
      let _ ← evalStmt functions fuel depth statement
      evalBody functions fuel depth rest

/-- The value of a statement. -/
def evalStmt (functions : List Function) (fuel depth : Nat) (s : Stmt) : Run Value :=
  match fuel with
  | 0 => Run.fail
  | fuel + 1 => do
    Run.tick
    match s with
    | .expr value => evalExpr functions fuel depth value
    | .define name value =>
      let value ← evalExpr functions fuel depth value
      Run.define name value
      return .unit
    | .assign target op value =>
      let value ← evalExpr functions fuel depth value
      let value ← match op with
        | some op => applyBinary op (← evalExpr functions fuel depth target) value
        | none => pure value
      match target with
      | .variable_ name => Run.assign name value
      | .index (.variable_ name) position =>
        let position ← evalExpr functions fuel depth position
        Run.assign name (← setElement (← Run.lookup name) position value)
      | _ => Run.fail
      return .unit
    | .repeat_ body =>
      iterate (maxOperations + 1) do
        Run.tick
        let _ ← Run.enclosed (evalBody functions fuel depth body)
        return true
    | .while_ condition body =>
      iterate (maxOperations + 1) do
        if ← truth (← evalExpr functions fuel depth condition) then
          let _ ← Run.enclosed (evalBody functions fuel depth body)
          return true
        else return false
    | .stop value => throw (.leaveLoop (← evalExpr functions fuel depth value))
    | .next => throw .nextTurn
    | .return_ value => throw (.result (← evalExpr functions fuel depth value))
    | .throw_ _ => Run.fail

end

namespace Program

/-- The depth of descent that the limits on operations and calls leave. -/
def descent : Nat := 4000

/-- The value of a script with the given variables; `none` if it fails. -/
def run (program : Program) (bindings : List (String × Value)) : Option Value :=
  match evalBody program.functions descent 0 program.body { bindings } with
  | (.ok value, _) | (.error (.result value), _) => some value
  | _ => none

/-- The text that a script gives, if it gives one. -/
def runText? (program : Program) (bindings : List (String × String)) : Option String :=
  match program.run (bindings.map fun (name, value) => (name, .text value)) with
  | some (.text value) => some value
  | _ => none

end Program

end CallTrace.Script
