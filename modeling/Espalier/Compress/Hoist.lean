import Espalier.Compress.Scope
import Espalier.Log

/-!
# Merged declarations

In every scope with two declarations or more, all of them are merged into one at the top, without
initial values, and assignments take their places. Since a variable belongs to its whole function,
this changes neither which expressions are evaluated nor their order. Declarations in the heads of
loops stay where they are.
-/

namespace Espalier.Script

/-- The assignments of a declaration's initial values. -/
def assignments : List Binding → List Expr
  | [] => []
  | .bare _ :: bindings => assignments bindings
  | .init name value :: bindings => .assign .plain (.name name) value :: assignments bindings

/-- The statement that stands for a declaration: its assignments in sequence, if there are any. -/
def assigning? (bindings : List Binding) : Option Stmt :=
  match assignments bindings with
  | [] => none
  | first :: rest => some (.expr (rest.foldl .comma first))

mutual

/-- A statement with assignments in place of declarations; one that declares only is dropped. -/
def Stmt.undeclared : Stmt → Option Stmt
  | .vars bindings => assigning? bindings
  | .block body => some (.block (undeclaredAll body))
  | .ifThen test yes => some (.ifThen test (yes.undeclared.getD (.block [])))
  | .ifElse test yes no =>
    some (.ifElse test (yes.undeclared.getD (.block [])) (no.undeclared.getD (.block [])))
  | .loop start test next body => some (.loop start test next (body.undeclared.getD (.block [])))
  | .loopIn item collection body =>
    some (.loopIn item collection (body.undeclared.getD (.block [])))
  | .loopVarIn item collection body =>
    some (.loopVarIn item collection (body.undeclared.getD (.block [])))
  | .while test body => some (.while test (body.undeclared.getD (.block [])))
  | .doWhile body test => some (.doWhile (body.undeclared.getD (.block [])) test)
  | .withScope scope body => some (.withScope scope (body.undeclared.getD (.block [])))
  | .label name body => some (.label name (body.undeclared.getD (.block [])))
  | .switch subject clauses => some (.switch subject (undeclaredClauses clauses))
  | .tryCatch body param handler =>
    some (.tryCatch (undeclaredAll body) param (undeclaredAll handler))
  | .tryFinally body finalizer =>
    some (.tryFinally (undeclaredAll body) (undeclaredAll finalizer))
  | .tryCatchFinally body param handler finalizer =>
    some (.tryCatchFinally (undeclaredAll body) param (undeclaredAll handler)
      (undeclaredAll finalizer))
  | other => some other

/-- Statements with assignments in place of declarations. -/
def undeclaredAll : List Stmt → List Stmt
  | [] => []
  | s :: ss => s.undeclared.toList ++ undeclaredAll ss

/-- Clauses with assignments in place of declarations. -/
def undeclaredClauses : List Clause → List Clause
  | [] => []
  | .on label body :: clauses => .on label (undeclaredAll body) :: undeclaredClauses clauses
  | .otherwise body :: clauses => .otherwise (undeclaredAll body) :: undeclaredClauses clauses

end

/-- The body of one scope with its declarations merged, if there are two or more. -/
def mergeDeclarations (body : List Stmt) : List Stmt :=
  let declarations := varStatementsAll body
  if declarations.length < 2 then body
  else .vars ((declaredNames declarations).map .bare) :: undeclaredAll body

mutual

/-- An expression whose functions have merged declarations. -/
def Expr.hoisted : Expr → Expr
  | .array items => .array (hoistedItems items)
  | .object properties => .object (hoistedProperties properties)
  | .group inner => .group inner.hoisted
  | .func name params body => .func name params (mergeDeclarations (hoistedStmts body))
  | .dot owner field => .dot owner.hoisted field
  | .index owner position => .index owner.hoisted position.hoisted
  | .call callee args => .call callee.hoisted (hoistedExprs args)
  | .new callee args => .new callee.hoisted (hoistedExprs args)
  | .newBare callee => .newBare callee.hoisted
  | .unary op operand => .unary op operand.hoisted
  | .step operand op => .step operand.hoisted op
  | .binary op left right => .binary op left.hoisted right.hoisted
  | .assign op left right => .assign op left.hoisted right.hoisted
  | .cond test yes no => .cond test.hoisted yes.hoisted no.hoisted
  | .comma left right => .comma left.hoisted right.hoisted
  | .name id => .name id
  | .this => .this
  | .null => .null
  | .bool value => .bool value
  | .number text => .number text
  | .string text => .string text
  | .regex text => .regex text

/-- Expressions whose functions have merged declarations. -/
def hoistedExprs : List Expr → List Expr
  | [] => []
  | e :: es => e.hoisted :: hoistedExprs es

/-- An expression that may be missing, whose functions have merged declarations. -/
def hoistedOptional : Option Expr → Option Expr
  | none => none
  | some e => some e.hoisted

/-- An array's items whose functions have merged declarations. -/
def hoistedItems : List Item → List Item
  | [] => []
  | .elision count :: items => .elision count :: hoistedItems items
  | .value e :: items => .value e.hoisted :: hoistedItems items

/-- An object's properties whose functions have merged declarations. The bodies of getters and
setters are entered, but stay scopes of their own that are not changed. -/
def hoistedProperties : List Property → List Property
  | [] => []
  | .field key value :: properties => .field key value.hoisted :: hoistedProperties properties
  | .getter key body :: properties =>
    .getter key (hoistedStmts body) :: hoistedProperties properties
  | .setter key param body :: properties =>
    .setter key param (hoistedStmts body) :: hoistedProperties properties

/-- A declared variable whose initial value's functions have merged declarations. -/
def Binding.hoisted : Binding → Binding
  | .bare name => .bare name
  | .init name value => .init name value.hoisted

/-- Declared variables whose initial values' functions have merged declarations. -/
def hoistedBindings : List Binding → List Binding
  | [] => []
  | b :: bs => b.hoisted :: hoistedBindings bs

/-- The start of a loop head whose functions have merged declarations. -/
def LoopStart.hoisted : LoopStart → LoopStart
  | .nothing => .nothing
  | .vars bindings => .vars (hoistedBindings bindings)
  | .expr e => .expr e.hoisted

/-- A statement whose functions have merged declarations. -/
def Stmt.hoisted : Stmt → Stmt
  | .block body => .block (hoistedStmts body)
  | .vars bindings => .vars (hoistedBindings bindings)
  | .empty => .empty
  | .expr e => .expr e.hoisted
  | .ifThen test yes => .ifThen test.hoisted yes.hoisted
  | .ifElse test yes no => .ifElse test.hoisted yes.hoisted no.hoisted
  | .loop start test next body =>
    .loop start.hoisted (hoistedOptional test) (hoistedOptional next) body.hoisted
  | .loopIn item collection body => .loopIn item.hoisted collection.hoisted body.hoisted
  | .loopVarIn item collection body => .loopVarIn item.hoisted collection.hoisted body.hoisted
  | .while test body => .while test.hoisted body.hoisted
  | .doWhile body test => .doWhile body.hoisted test.hoisted
  | .continue label => .continue label
  | .break label => .break label
  | .ret value => .ret (hoistedOptional value)
  | .withScope scope body => .withScope scope.hoisted body.hoisted
  | .label name body => .label name body.hoisted
  | .switch subject clauses => .switch subject.hoisted (hoistedClauses clauses)
  | .throw value => .throw value.hoisted
  | .debugger => .debugger
  | .tryCatch body param handler => .tryCatch (hoistedStmts body) param (hoistedStmts handler)
  | .tryFinally body finalizer => .tryFinally (hoistedStmts body) (hoistedStmts finalizer)
  | .tryCatchFinally body param handler finalizer =>
    .tryCatchFinally (hoistedStmts body) param (hoistedStmts handler) (hoistedStmts finalizer)
  | .func name params body => .func name params (mergeDeclarations (hoistedStmts body))

/-- Statements whose functions have merged declarations. -/
def hoistedStmts : List Stmt → List Stmt
  | [] => []
  | s :: ss => s.hoisted :: hoistedStmts ss

/-- Clauses whose functions have merged declarations. -/
def hoistedClauses : List Clause → List Clause
  | [] => []
  | .on label body :: clauses => .on label.hoisted (hoistedStmts body) :: hoistedClauses clauses
  | .otherwise body :: clauses => .otherwise (hoistedStmts body) :: hoistedClauses clauses

end

/-- A program with merged declarations in every scope. -/
def hoist (program : Program) : Program :=
  mergeDeclarations (hoistedStmts program)

/-- What merging has to say about one scope. -/
def scopeEvent (warn : Bool) (body : List Stmt) : LogEvent :=
  let declarations := varStatementsAll body
  if declarations.length < 2 then .unmerged declarations.length warn
  else .merged declarations.length (declaredNames declarations)

/-- What merging has to say about a program: its functions in order, and then the program. -/
def hoistEvents (warn : Bool) (program : Program) : List LogEvent :=
  (stmtFunctionBodies program ++ [program]).map (scopeEvent warn)

end Espalier.Script
