import Espalier.Compress.Scope

/-!
# The variables of a scope

A scope is a program or the body of a function, without the functions inside it. `varNamesAll` lists
the variables that a scope declares, one entry for each declaration, and `targetsAll` those that it
sets or switches on.
-/

namespace Espalier.Script

/-! ## Declared variables -/

/-- The variables that are declared before the first semicolon of a loop head. -/
def LoopStart.varNames : LoopStart → List String
  | .nothing | .expr _ => []
  | .vars bindings => bindings.map (·.name)

mutual

/-- The variables that a statement declares in its scope, in the heads of loops too. -/
def Stmt.varNames : Stmt → List String
  | .vars bindings => bindings.map (·.name)
  | .block body => varNamesAll body
  | .ifThen _ yes => yes.varNames
  | .ifElse _ yes no => yes.varNames ++ no.varNames
  | .loop start _ _ body => start.varNames ++ body.varNames
  | .loopVarIn item _ body => item.name :: body.varNames
  | .loopIn _ _ body | .while _ body | .doWhile body _ | .withScope _ body | .label _ body =>
    body.varNames
  | .switch _ clauses => varNamesClauses clauses
  | .tryCatch body _ handler => varNamesAll body ++ varNamesAll handler
  | .tryFinally body finalizer => varNamesAll body ++ varNamesAll finalizer
  | .tryCatchFinally body _ handler finalizer =>
    varNamesAll body ++ varNamesAll handler ++ varNamesAll finalizer
  | .empty | .expr _ | .continue _ | .break _ | .ret _ | .throw _ | .debugger | .func .. => []

/-- The variables that statements declare in their scope. -/
def varNamesAll : List Stmt → List String
  | [] => []
  | s :: ss => s.varNames ++ varNamesAll ss

/-- The variables that clauses declare in their scope. -/
def varNamesClauses : List Clause → List String
  | [] => []
  | .on _ body :: clauses => varNamesAll body ++ varNamesClauses clauses
  | .otherwise body :: clauses => varNamesAll body ++ varNamesClauses clauses

end

theorem varNamesAll_append (ss ss' : List Stmt) :
    varNamesAll (ss ++ ss') = varNamesAll ss ++ varNamesAll ss' := by
  induction ss with
  | nil => rfl
  | cons s ss ih => rw [List.cons_append, varNamesAll, varNamesAll, ih, List.append_assoc]

theorem varStatementsAll_append (ss ss' : List Stmt) :
    varStatementsAll (ss ++ ss') = varStatementsAll ss ++ varStatementsAll ss' := by
  induction ss with
  | nil => rfl
  | cons s ss ih => rw [List.cons_append, varStatementsAll, varStatementsAll, ih, List.append_assoc]

/-! ## Variables that are set -/

/-- The variable that an expression is, if it is one. -/
def Expr.asVariable : Expr → List String
  | .name id => [id]
  | _ => []

/-- The operator sets its operand. -/
def UnaryOp.isStep : UnaryOp → Bool
  | .increment | .decrement => true
  | _ => false

mutual

/-- The variables that an expression sets, outside the functions in it. -/
def Expr.targets : Expr → List String
  | .name _ | .this | .null | .bool _ | .number _ | .string _ | .regex _ | .func .. => []
  | .array items => itemTargets items
  | .object properties => propertyTargets properties
  | .group inner => inner.targets
  | .dot owner _ => owner.targets
  | .index owner position => owner.targets ++ position.targets
  | .call callee args => callee.targets ++ exprTargets args
  | .new callee args => callee.targets ++ exprTargets args
  | .newBare callee => callee.targets
  | .unary op operand => (if op.isStep then operand.asVariable else []) ++ operand.targets
  | .step operand _ => operand.asVariable ++ operand.targets
  | .binary _ left right => left.targets ++ right.targets
  | .assign _ left right => left.asVariable ++ left.targets ++ right.targets
  | .cond test yes no => test.targets ++ yes.targets ++ no.targets
  | .comma left right => left.targets ++ right.targets

/-- The variables that expressions set. -/
def exprTargets : List Expr → List String
  | [] => []
  | e :: es => e.targets ++ exprTargets es

/-- The variables that an array's items set. -/
def itemTargets : List Item → List String
  | [] => []
  | .elision _ :: items => itemTargets items
  | .value e :: items => e.targets ++ itemTargets items

/-- The variables that an object's properties set; accessors are functions. -/
def propertyTargets : List Property → List String
  | [] => []
  | .field _ value :: properties => value.targets ++ propertyTargets properties
  | .getter .. :: properties | .setter .. :: properties => propertyTargets properties

end

/-- The variables that an expression sets, if there is one. -/
def optionalTargets : Option Expr → List String
  | none => []
  | some e => e.targets

/-- The variables that a declared variable's initial value sets, itself included. -/
def Binding.targets : Binding → List String
  | .bare _ => []
  | .init name value => name :: value.targets

/-- The variables that the start of a loop sets. -/
def LoopStart.targets : LoopStart → List String
  | .nothing => []
  | .vars bindings => bindings.flatMap Binding.targets
  | .expr e => e.targets

mutual

/-- The variables that a statement sets or switches on, outside the functions in it. -/
def Stmt.targets : Stmt → List String
  | .block body => targetsAll body
  | .vars bindings => bindings.flatMap Binding.targets
  | .expr e => e.targets
  | .ifThen test yes => test.targets ++ yes.targets
  | .ifElse test yes no => test.targets ++ yes.targets ++ no.targets
  | .loop start test next body =>
    start.targets ++ optionalTargets test ++ optionalTargets next ++ body.targets
  | .loopIn item collection body =>
    item.asVariable ++ item.targets ++ collection.targets ++ body.targets
  | .loopVarIn item collection body =>
    item.name :: item.targets ++ collection.targets ++ body.targets
  | .while test body => test.targets ++ body.targets
  | .doWhile body test => body.targets ++ test.targets
  | .ret value => optionalTargets value
  | .withScope scope body => scope.targets ++ body.targets
  | .label _ body => body.targets
  | .switch subject clauses => subject.asVariable ++ subject.targets ++ targetsClauses clauses
  | .throw value => value.targets
  | .tryCatch body _ handler => targetsAll body ++ targetsAll handler
  | .tryFinally body finalizer => targetsAll body ++ targetsAll finalizer
  | .tryCatchFinally body _ handler finalizer =>
    targetsAll body ++ targetsAll handler ++ targetsAll finalizer
  | .empty | .continue _ | .break _ | .debugger | .func .. => []

/-- The variables that statements set or switch on. -/
def targetsAll : List Stmt → List String
  | [] => []
  | s :: ss => s.targets ++ targetsAll ss

/-- The variables that clauses set or switch on. -/
def targetsClauses : List Clause → List String
  | [] => []
  | .on label body :: clauses => label.targets ++ targetsAll body ++ targetsClauses clauses
  | .otherwise body :: clauses => targetsAll body ++ targetsClauses clauses

end

theorem targetsAll_append (ss ss' : List Stmt) :
    targetsAll (ss ++ ss') = targetsAll ss ++ targetsAll ss' := by
  induction ss with
  | nil => rfl
  | cons s ss ih => rw [List.cons_append, targetsAll, targetsAll, ih, List.append_assoc]

/-! ## Functions -/

theorem stmtFunctionBodies_append (ss ss' : List Stmt) :
    stmtFunctionBodies (ss ++ ss') = stmtFunctionBodies ss ++ stmtFunctionBodies ss' := by
  induction ss with
  | nil => rfl
  | cons s ss ih =>
    rw [List.cons_append, stmtFunctionBodies, stmtFunctionBodies, ih, List.append_assoc]

end Espalier.Script
