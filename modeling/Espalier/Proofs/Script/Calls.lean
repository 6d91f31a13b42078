import Espalier.Script.Tree

/-!
# The calls of a program

`callees` lists what a tree calls: the callee of every call in it, those inside the callees, the
arguments and the bodies of functions included. Constructions by `new` are no calls.
-/

namespace Espalier.Script

mutual

/-- What an expression calls. -/
def Expr.callees : Expr → List Expr
  | .name _ | .this | .null | .bool _ | .number _ | .string _ | .regex _ => []
  | .array items => itemCallees items
  | .object properties => propertyCallees properties
  | .group inner => inner.callees
  | .func _ _ body => stmtCallees body
  | .dot owner _ => owner.callees
  | .index owner position => owner.callees ++ position.callees
  | .call callee args => callee :: callee.callees ++ exprCallees args
  | .new callee args => callee.callees ++ exprCallees args
  | .newBare callee => callee.callees
  | .unary _ operand => operand.callees
  | .step operand _ => operand.callees
  | .binary _ left right => left.callees ++ right.callees
  | .assign _ left right => left.callees ++ right.callees
  | .cond test yes no => test.callees ++ yes.callees ++ no.callees
  | .comma left right => left.callees ++ right.callees

/-- What several expressions call. -/
def exprCallees : List Expr → List Expr
  | [] => []
  | e :: es => e.callees ++ exprCallees es

/-- What an expression calls that may be missing. -/
def optionalCallees : Option Expr → List Expr
  | none => []
  | some e => e.callees

/-- What an array's items call. -/
def itemCallees : List Item → List Expr
  | [] => []
  | .elision _ :: items => itemCallees items
  | .value e :: items => e.callees ++ itemCallees items

/-- What an object's properties call. -/
def propertyCallees : List Property → List Expr
  | [] => []
  | .field _ value :: properties => value.callees ++ propertyCallees properties
  | .getter _ body :: properties => stmtCallees body ++ propertyCallees properties
  | .setter _ _ body :: properties => stmtCallees body ++ propertyCallees properties

/-- What the initial value of a variable calls. -/
def Binding.callees : Binding → List Expr
  | .bare _ => []
  | .init _ value => value.callees

/-- What the initial values of variables call. -/
def bindingCallees : List Binding → List Expr
  | [] => []
  | b :: bs => b.callees ++ bindingCallees bs

/-- What is called before the first semicolon of a loop head. -/
def LoopStart.callees : LoopStart → List Expr
  | .nothing => []
  | .vars bindings => bindingCallees bindings
  | .expr e => e.callees

/-- What a statement calls. -/
def Stmt.callees : Stmt → List Expr
  | .block body => stmtCallees body
  | .vars bindings => bindingCallees bindings
  | .empty | .continue _ | .break _ | .debugger => []
  | .expr e => e.callees
  | .ifThen test yes => test.callees ++ yes.callees
  | .ifElse test yes no => test.callees ++ yes.callees ++ no.callees
  | .loop start test next body =>
    start.callees ++ optionalCallees test ++ optionalCallees next ++ body.callees
  | .loopIn item collection body => item.callees ++ collection.callees ++ body.callees
  | .loopVarIn item collection body => item.callees ++ collection.callees ++ body.callees
  | .while test body => test.callees ++ body.callees
  | .doWhile body test => body.callees ++ test.callees
  | .ret value => optionalCallees value
  | .withScope scope body => scope.callees ++ body.callees
  | .label _ body => body.callees
  | .switch subject clauses => subject.callees ++ clauseCallees clauses
  | .throw value => value.callees
  | .tryCatch body _ handler => stmtCallees body ++ stmtCallees handler
  | .tryFinally body finalizer => stmtCallees body ++ stmtCallees finalizer
  | .tryCatchFinally body _ handler finalizer =>
    stmtCallees body ++ stmtCallees handler ++ stmtCallees finalizer
  | .func _ _ body => stmtCallees body

/-- What several statements call. -/
def stmtCallees : List Stmt → List Expr
  | [] => []
  | s :: ss => s.callees ++ stmtCallees ss

/-- What the clauses of a switch call. -/
def clauseCallees : List Clause → List Expr
  | [] => []
  | .on label body :: clauses => label.callees ++ stmtCallees body ++ clauseCallees clauses
  | .otherwise body :: clauses => stmtCallees body ++ clauseCallees clauses

end

theorem stmtCallees_append (a b : List Stmt) :
    stmtCallees (a ++ b) = stmtCallees a ++ stmtCallees b := by
  induction a with
  | nil => rfl
  | cons s a ih => rw [List.cons_append, stmtCallees, stmtCallees, ih, List.append_assoc]

end Espalier.Script
