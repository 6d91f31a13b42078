import Espalier.Script.Tree

/-!
# Declarations of a scope

A variable belongs to the function around its declaration, or to the program. `varStatements` lists
the declarations of a scope that stand as statements: those in the heads of loops are left out, and
nested functions, which are scopes of their own, are not entered.

`functionBodies` lists the scopes of all functions of a tree, each before those inside it. They come
in the order of the text, except that the test of a `do` loop comes before its body.
-/

namespace Espalier.Script

mutual

/-- The declarations that a statement makes in its scope. -/
def Stmt.varStatements : Stmt → List (List Binding)
  | .vars bindings => [bindings]
  | .block body => varStatementsAll body
  | .ifThen _ yes => yes.varStatements
  | .ifElse _ yes no => yes.varStatements ++ no.varStatements
  | .loop _ _ _ body => body.varStatements
  | .loopIn _ _ body => body.varStatements
  | .loopVarIn _ _ body => body.varStatements
  | .while _ body => body.varStatements
  | .doWhile body _ => body.varStatements
  | .withScope _ body => body.varStatements
  | .label _ body => body.varStatements
  | .switch _ clauses => varStatementsClauses clauses
  | .tryCatch body _ handler => varStatementsAll body ++ varStatementsAll handler
  | .tryFinally body finalizer => varStatementsAll body ++ varStatementsAll finalizer
  | .tryCatchFinally body _ handler finalizer =>
    varStatementsAll body ++ varStatementsAll handler ++ varStatementsAll finalizer
  | .empty | .expr _ | .continue _ | .break _ | .ret _ | .throw _ | .debugger | .func .. => []

/-- The declarations that statements make in their scope. -/
def varStatementsAll : List Stmt → List (List Binding)
  | [] => []
  | s :: ss => s.varStatements ++ varStatementsAll ss

/-- The declarations that clauses make in their scope. -/
def varStatementsClauses : List Clause → List (List Binding)
  | [] => []
  | .on _ body :: clauses => varStatementsAll body ++ varStatementsClauses clauses
  | .otherwise body :: clauses => varStatementsAll body ++ varStatementsClauses clauses

end

/-- Names without those that occur before. -/
def firstOccurrences (names : List String) : List String :=
  names.foldl (fun seen name => if seen.contains name then seen else seen ++ [name]) []

/-- The variables that declarations name, each once in order of first declaration. -/
def declaredNames (declarations : List (List Binding)) : List String :=
  firstOccurrences (declarations.flatMap fun bindings => bindings.map (·.name))

mutual

/-- The bodies of the functions in an expression. -/
def Expr.functionBodies : Expr → List (List Stmt)
  | .name _ | .this | .null | .bool _ | .number _ | .string _ | .regex _ => []
  | .array items => itemFunctionBodies items
  | .object properties => propertyFunctionBodies properties
  | .group inner => inner.functionBodies
  | .func _ _ body => body :: stmtFunctionBodies body
  | .dot owner _ => owner.functionBodies
  | .index owner position => owner.functionBodies ++ position.functionBodies
  | .call callee args => callee.functionBodies ++ exprFunctionBodies args
  | .new callee args => callee.functionBodies ++ exprFunctionBodies args
  | .newBare callee => callee.functionBodies
  | .unary _ operand => operand.functionBodies
  | .step operand _ => operand.functionBodies
  | .binary _ left right => left.functionBodies ++ right.functionBodies
  | .assign _ left right => left.functionBodies ++ right.functionBodies
  | .cond test yes no => test.functionBodies ++ yes.functionBodies ++ no.functionBodies
  | .comma left right => left.functionBodies ++ right.functionBodies

/-- The bodies of the functions in several expressions. -/
def exprFunctionBodies : List Expr → List (List Stmt)
  | [] => []
  | e :: es => e.functionBodies ++ exprFunctionBodies es

/-- The bodies of the functions in an expression that may be missing. -/
def optionalFunctionBodies : Option Expr → List (List Stmt)
  | none => []
  | some e => e.functionBodies

/-- The bodies of the functions in an array's items. -/
def itemFunctionBodies : List Item → List (List Stmt)
  | [] => []
  | .elision _ :: items => itemFunctionBodies items
  | .value e :: items => e.functionBodies ++ itemFunctionBodies items

/-- The bodies of the functions in an object's properties. Getters and setters are entered, but
their own bodies do not count. -/
def propertyFunctionBodies : List Property → List (List Stmt)
  | [] => []
  | .field _ value :: properties => value.functionBodies ++ propertyFunctionBodies properties
  | .getter _ body :: properties => stmtFunctionBodies body ++ propertyFunctionBodies properties
  | .setter _ _ body :: properties => stmtFunctionBodies body ++ propertyFunctionBodies properties

/-- The bodies of the functions in the initial value of a variable. -/
def Binding.functionBodies : Binding → List (List Stmt)
  | .bare _ => []
  | .init _ value => value.functionBodies

/-- The bodies of the functions in the initial values of variables. -/
def bindingFunctionBodies : List Binding → List (List Stmt)
  | [] => []
  | b :: bs => b.functionBodies ++ bindingFunctionBodies bs

/-- The bodies of the functions before the first semicolon of a loop head. -/
def LoopStart.functionBodies : LoopStart → List (List Stmt)
  | .nothing => []
  | .vars bindings => bindingFunctionBodies bindings
  | .expr e => e.functionBodies

/-- The bodies of the functions in a statement. -/
def Stmt.functionBodies : Stmt → List (List Stmt)
  | .block body => stmtFunctionBodies body
  | .vars bindings => bindingFunctionBodies bindings
  | .empty | .continue _ | .break _ | .debugger => []
  | .expr e => e.functionBodies
  | .ifThen test yes => test.functionBodies ++ yes.functionBodies
  | .ifElse test yes no => test.functionBodies ++ yes.functionBodies ++ no.functionBodies
  | .loop start test next body =>
    start.functionBodies ++ optionalFunctionBodies test ++ optionalFunctionBodies next
      ++ body.functionBodies
  | .loopIn item collection body =>
    item.functionBodies ++ collection.functionBodies ++ body.functionBodies
  | .loopVarIn item collection body =>
    item.functionBodies ++ collection.functionBodies ++ body.functionBodies
  | .while test body => test.functionBodies ++ body.functionBodies
  | .doWhile body test => test.functionBodies ++ body.functionBodies
  | .ret value => optionalFunctionBodies value
  | .withScope scope body => scope.functionBodies ++ body.functionBodies
  | .label _ body => body.functionBodies
  | .switch subject clauses => subject.functionBodies ++ clauseFunctionBodies clauses
  | .throw value => value.functionBodies
  | .tryCatch body _ handler => stmtFunctionBodies body ++ stmtFunctionBodies handler
  | .tryFinally body finalizer => stmtFunctionBodies body ++ stmtFunctionBodies finalizer
  | .tryCatchFinally body _ handler finalizer =>
    stmtFunctionBodies body ++ stmtFunctionBodies handler ++ stmtFunctionBodies finalizer
  | .func _ _ body => body :: stmtFunctionBodies body

/-- The bodies of the functions in several statements. -/
def stmtFunctionBodies : List Stmt → List (List Stmt)
  | [] => []
  | s :: ss => s.functionBodies ++ stmtFunctionBodies ss

/-- The bodies of the functions in the clauses of a switch. -/
def clauseFunctionBodies : List Clause → List (List Stmt)
  | [] => []
  | .on label body :: clauses =>
    label.functionBodies ++ stmtFunctionBodies body ++ clauseFunctionBodies clauses
  | .otherwise body :: clauses => stmtFunctionBodies body ++ clauseFunctionBodies clauses

end

end Espalier.Script
