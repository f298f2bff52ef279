/-!
# Scripts

The syntax of the small scripts that pick a signature out of an event. A script is a list of
statements, some of which define functions; its value is the value of the last statement.
-/

namespace CallTrace.Script

/-- An operator between two operands. -/
inductive BinaryOp where
  | or | and | bitOr | bitXor | bitAnd | eq | ne | isIn | notIn | lt | le | gt | ge | coalesce
  | range | rangeTo | add | sub | mul | div | rem | power | shiftLeft | shiftRight
  deriving DecidableEq, Repr

/-- An operator in front of its operand. -/
inductive UnaryOp where
  | not | negate | plus
  deriving DecidableEq, Repr

mutual

/-- An expression. -/
inductive Expr where
  | unit
  | bool (value : Bool)
  | int (value : Int)
  | float (value : Float)
  | char (value : Char)
  | text (value : String)
  /-- A text put together from the values of its parts. -/
  | template (parts : List Expr)
  | list (items : List Expr)
  | variable_ (name : String)
  | unary (op : UnaryOp) (operand : Expr)
  | binary (op : BinaryOp) (left right : Expr)
  | index (list position : Expr)
  | call (name : String) (arguments : List Expr)
  | method (receiver : Expr) (name : String) (arguments : List Expr)
  | property (receiver : Expr) (name : String)
  | branch (condition : Expr) (yes no : List Stmt)
  | block (body : List Stmt)

/-- A statement. -/
inductive Stmt where
  | expr (value : Expr)
  | define (name : String) (value : Expr)
  /-- Assigns a value, or what an operator makes of the old value and another one. -/
  | assign (target : Expr) (op : Option BinaryOp) (value : Expr)
  | repeat_ (body : List Stmt)
  | while_ (condition : Expr) (body : List Stmt)
  | stop (value : Expr)
  | next
  | return_ (value : Expr)
  | throw_ (value : Expr)

end

/-- A function that a script defines. -/
structure Function where
  name : String
  parameters : List String
  body : List Stmt

/-- A script that has been read. -/
structure Program where
  functions : List Function
  body : List Stmt

end CallTrace.Script
