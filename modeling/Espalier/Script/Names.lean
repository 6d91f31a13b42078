import Espalier.Script.Tree

/-!
# The identifiers of a program

`names` lists every identifier of a tree: variables, parameters, labels, fields and the names of
properties. They come in the order of the text, except that the test of a `do` loop comes before
its body. Literals are no identifiers, not even as the name of a property.
-/

namespace Espalier.Script

/-- The identifiers of a property's name. -/
def Key.names : Key → List String
  | .name id => [id]
  | .string _ | .number _ => []

mutual

/-- The identifiers of an expression. -/
def Expr.names : Expr → List String
  | .name id => [id]
  | .this | .null | .bool _ | .number _ | .string _ | .regex _ => []
  | .array items => itemNames items
  | .object properties => propertyNames properties
  | .group inner => inner.names
  | .func name params body => name.toList ++ params ++ stmtNames body
  | .dot owner field => owner.names ++ [field]
  | .index owner position => owner.names ++ position.names
  | .call callee args => callee.names ++ exprNames args
  | .new callee args => callee.names ++ exprNames args
  | .newBare callee => callee.names
  | .unary _ operand => operand.names
  | .step operand _ => operand.names
  | .binary _ left right => left.names ++ right.names
  | .assign _ left right => left.names ++ right.names
  | .cond test yes no => test.names ++ yes.names ++ no.names
  | .comma left right => left.names ++ right.names

/-- The identifiers of several expressions. -/
def exprNames : List Expr → List String
  | [] => []
  | e :: es => e.names ++ exprNames es

/-- The identifiers of an expression that may be missing. -/
def optionalNames : Option Expr → List String
  | none => []
  | some e => e.names

/-- The identifiers of an array's items. -/
def itemNames : List Item → List String
  | [] => []
  | .elision _ :: items => itemNames items
  | .value e :: items => e.names ++ itemNames items

/-- The identifiers of an object's properties. -/
def propertyNames : List Property → List String
  | [] => []
  | .field key value :: properties => key.names ++ value.names ++ propertyNames properties
  | .getter key body :: properties => key.names ++ stmtNames body ++ propertyNames properties
  | .setter key param body :: properties =>
    key.names ++ param :: stmtNames body ++ propertyNames properties

/-- The identifiers of a declared variable. -/
def Binding.names : Binding → List String
  | .bare name => [name]
  | .init name value => name :: value.names

/-- The identifiers of several declared variables. -/
def bindingNames : List Binding → List String
  | [] => []
  | b :: bs => b.names ++ bindingNames bs

/-- The identifiers before the first semicolon of a loop head. -/
def LoopStart.names : LoopStart → List String
  | .nothing => []
  | .vars bindings => bindingNames bindings
  | .expr e => e.names

/-- The identifiers of a statement. -/
def Stmt.names : Stmt → List String
  | .block body => stmtNames body
  | .vars bindings => bindingNames bindings
  | .empty => []
  | .expr e => e.names
  | .ifThen test yes => test.names ++ yes.names
  | .ifElse test yes no => test.names ++ yes.names ++ no.names
  | .loop start test next body =>
    start.names ++ optionalNames test ++ optionalNames next ++ body.names
  | .loopIn item collection body => item.names ++ collection.names ++ body.names
  | .loopVarIn item collection body => item.names ++ collection.names ++ body.names
  | .while test body => test.names ++ body.names
  | .doWhile body test => test.names ++ body.names
  | .continue label => label.toList
  | .break label => label.toList
  | .ret value => optionalNames value
  | .withScope scope body => scope.names ++ body.names
  | .label name body => name :: body.names
  | .switch subject clauses => subject.names ++ clauseNames clauses
  | .throw value => value.names
  | .debugger => []
  | .tryCatch body param handler => stmtNames body ++ param :: stmtNames handler
  | .tryFinally body finalizer => stmtNames body ++ stmtNames finalizer
  | .tryCatchFinally body param handler finalizer =>
    stmtNames body ++ param :: stmtNames handler ++ stmtNames finalizer
  | .func name params body => name :: params ++ stmtNames body

/-- The identifiers of several statements. -/
def stmtNames : List Stmt → List String
  | [] => []
  | s :: ss => s.names ++ stmtNames ss

/-- The identifiers of the clauses of a switch. -/
def clauseNames : List Clause → List String
  | [] => []
  | .on label body :: clauses => label.names ++ stmtNames body ++ clauseNames clauses
  | .otherwise body :: clauses => stmtNames body ++ clauseNames clauses

end

end Espalier.Script
