/-!
# Programs

The program trees that the reader builds, the passes transform and the printers write. They are
close to the text: parentheses are kept as `Expr.group`, literals keep their spelling, and a run of
commas in an array is an item of its own, so that printing needs no knowledge of precedence.
-/

namespace Espalier.Script

/-- Operators between two operands, except assignment and the comma. -/
inductive BinaryOp where
  | or | and | bitOr | bitXor | bitAnd
  | eq | ne | eqStrict | neStrict
  | lt | gt | le | ge | isInstance | isIn
  | shiftLeft | shiftRight | shiftRightZero
  | add | sub | mul | div | mod
  deriving DecidableEq, Repr

/-- The spelling of an operator. -/
def BinaryOp.text : BinaryOp → String
  | .or => "||" | .and => "&&" | .bitOr => "|" | .bitXor => "^" | .bitAnd => "&"
  | .eq => "==" | .ne => "!=" | .eqStrict => "===" | .neStrict => "!=="
  | .lt => "<" | .gt => ">" | .le => "<=" | .ge => ">="
  | .isInstance => "instanceof" | .isIn => "in"
  | .shiftLeft => "<<" | .shiftRight => ">>" | .shiftRightZero => ">>>"
  | .add => "+" | .sub => "-" | .mul => "*" | .div => "/" | .mod => "%"

/-- How tightly an operator binds; all of them group to the left. -/
def BinaryOp.level : BinaryOp → Nat
  | .or => 1 | .and => 2 | .bitOr => 3 | .bitXor => 4 | .bitAnd => 5
  | .eq | .ne | .eqStrict | .neStrict => 6
  | .lt | .gt | .le | .ge | .isInstance | .isIn => 7
  | .shiftLeft | .shiftRight | .shiftRightZero => 8
  | .add | .sub => 9
  | .mul | .div | .mod => 10

/-- Assignment, plain or combined with an operation. -/
inductive AssignOp where
  | plain | mul | div | mod | add | sub
  | shiftLeft | shiftRight | shiftRightZero | bitAnd | bitXor | bitOr
  deriving DecidableEq, Repr

/-- The spelling of an assignment. -/
def AssignOp.text : AssignOp → String
  | .plain => "=" | .mul => "*=" | .div => "/=" | .mod => "%=" | .add => "+=" | .sub => "-="
  | .shiftLeft => "<<=" | .shiftRight => ">>=" | .shiftRightZero => ">>>="
  | .bitAnd => "&=" | .bitXor => "^=" | .bitOr => "|="

/-- Every assignment. -/
def AssignOp.all : List AssignOp :=
  [.plain, .mul, .div, .mod, .add, .sub, .shiftLeft, .shiftRight, .shiftRightZero, .bitAnd,
    .bitXor, .bitOr]

/-- Operators in front of one operand. -/
inductive UnaryOp where
  | delete | void | typeOf | increment | decrement | plus | minus | bitNot | not
  deriving DecidableEq, Repr

/-- The spelling of an operator in front of its operand. -/
def UnaryOp.text : UnaryOp → String
  | .delete => "delete" | .void => "void" | .typeOf => "typeof"
  | .increment => "++" | .decrement => "--"
  | .plus => "+" | .minus => "-" | .bitNot => "~" | .not => "!"

/-- Operators after one operand. -/
inductive StepOp where
  | increment | decrement
  deriving DecidableEq, Repr

/-- The spelling of an operator after its operand. -/
def StepOp.text : StepOp → String
  | .increment => "++" | .decrement => "--"

/-- The name of a property in an object literal; literals keep their spelling. -/
inductive Key where
  | name (id : String)
  | string (text : String)
  | number (text : String)
  deriving DecidableEq, Repr

/-- The spelling of a property's name. -/
def Key.text : Key → String
  | .name id => id
  | .string text => text
  | .number text => text

mutual

/-- Expressions. -/
inductive Expr where
  | name (id : String)
  | this
  | null
  | bool (value : Bool)
  | number (text : String)
  | string (text : String)
  | regex (text : String)
  | array (items : List Item)
  | object (properties : List Property)
  | group (inner : Expr)
  | func (name : Option String) (params : List String) (body : List Stmt)
  | dot (owner : Expr) (field : String)
  | index (owner position : Expr)
  | call (callee : Expr) (args : List Expr)
  | new (callee : Expr) (args : List Expr)
  | newBare (callee : Expr)
  | unary (op : UnaryOp) (operand : Expr)
  | step (operand : Expr) (op : StepOp)
  | binary (op : BinaryOp) (left right : Expr)
  | assign (op : AssignOp) (left right : Expr)
  | cond (test yes no : Expr)
  | comma (left right : Expr)

/-- Items of an array literal: a value, or a run of commas that stand for missing values. -/
inductive Item where
  | elision (commas : Nat)
  | value (e : Expr)

/-- Properties of an object literal. -/
inductive Property where
  | field (key : Key) (value : Expr)
  | getter (key : Key) (body : List Stmt)
  | setter (key : Key) (param : String) (body : List Stmt)

/-- One variable of a declaration. -/
inductive Binding where
  | bare (name : String)
  | init (name : String) (value : Expr)

/-- What stands before the first semicolon of a loop head. -/
inductive LoopStart where
  | nothing
  | vars (bindings : List Binding)
  | expr (e : Expr)

/-- Statements. -/
inductive Stmt where
  | block (body : List Stmt)
  | vars (bindings : List Binding)
  | empty
  | expr (e : Expr)
  | ifThen (test : Expr) (yes : Stmt)
  | ifElse (test : Expr) (yes no : Stmt)
  | loop (start : LoopStart) (test next : Option Expr) (body : Stmt)
  | loopIn (item collection : Expr) (body : Stmt)
  | loopVarIn (item : Binding) (collection : Expr) (body : Stmt)
  | while (test : Expr) (body : Stmt)
  | doWhile (body : Stmt) (test : Expr)
  | continue (label : Option String)
  | break (label : Option String)
  | ret (value : Option Expr)
  | withScope (scope : Expr) (body : Stmt)
  | label (name : String) (body : Stmt)
  | switch (subject : Expr) (clauses : List Clause)
  | throw (value : Expr)
  | debugger
  | tryCatch (body : List Stmt) (param : String) (handler : List Stmt)
  | tryFinally (body finalizer : List Stmt)
  | tryCatchFinally (body : List Stmt) (param : String) (handler finalizer : List Stmt)
  | func (name : String) (params : List String) (body : List Stmt)

/-- Clauses of a switch. -/
inductive Clause where
  | on (label : Expr) (body : List Stmt)
  | otherwise (body : List Stmt)

end

/-- The variable that a binding declares. -/
def Binding.name : Binding → String
  | .bare name => name
  | .init name _ => name

/-- A program is a list of statements. -/
abbrev Program := List Stmt

end Espalier.Script
