import Espalier.Marker
import Espalier.Render.Build
import Espalier.Script.Names

/-!
# Render functions from reserved calls

Generated source speaks of elements and output through calls of reserved names in statement
position. `resolve` turns such a program into a render function: every output goes into the array
that is current at its place, and an element has an array of its own, which the block after its call
fills.

Calls are resolved inside blocks, conditionals, loops, switches and protected blocks, in the
functions of an iteration, which collect into arrays of their own, and in the functions handed to an
author's calls, which output into the array around them. A reserved name anywhere else is refused.
-/

namespace Espalier.Render

open Espalier.Script

/-- Why a program has no render function. -/
inductive Fault where
  /-- An element call without exactly a type and properties. -/
  | elementArguments (count : Nat)
  /-- An output call without exactly one value. -/
  | outputArguments (name : String) (count : Nat)
  /-- An iteration call without a collection and one or two functions. -/
  | iterationArguments (count : Nat)
  /-- An iteration over something other than a function expression. -/
  | notFunction
  /-- A reserved name that is not called in statement position. -/
  | unresolved (name : String)
  deriving DecidableEq, Repr

/-- The wording of a fault. -/
def Fault.message : Fault → String
  | .elementArguments count =>
    Marker.element ++ " expects (type, props), got " ++ toString count ++ " argument(s)"
  | .outputArguments name count => name ++ " expects one argument, got " ++ toString count
  | .iterationArguments count =>
    Marker.iterate ++ " expects (collection, each[, else]), got " ++ toString count
      ++ " argument(s)"
  | .notFunction => Marker.iterate ++ " callbacks must be function expressions"
  | .unresolved name => "Unresolved " ++ name ++ " outside statement position"

/-- Resolving counts the arrays it has named. -/
abbrev Resolving := StateT Nat (Except Fault)

/-- A new array name. -/
def fresh (stem : String) : Resolving String := do
  let count ← get
  set (count + 1)
  return stem ++ toString count

/-- The single argument of an output call. -/
def onlyArgument (name : String) (args : List Expr) : Resolving Expr :=
  match args with
  | [value] => return value
  | _ => throw (.outputArguments name args.length)

/-- Name the array of an element, after a look at the call's arguments. -/
def elementArray (args : List Expr) : Resolving String :=
  if args.length = 2 then fresh "$element" else throw (.elementArguments args.length)

/-- The block that builds an element: its array, what fills it, and the output of the element. -/
def Settings.elementBlock (settings : Settings) (target array : String) (args : List Expr)
    (children : List Stmt) : Stmt :=
  .block (declare array (.array (args.map .value)) :: children
    ++ [push target (settings.create array)])

/-- The body of an iteration's function: its array, what fills it, and the array as its result. -/
def collectingBody (array : String) (body : List Stmt) : List Stmt :=
  declare array (.array []) :: body ++ [.ret (some (.name array))]

/-- The arguments of a statement that constructs an element. -/
def elementCall? : Stmt → Option (List Expr)
  | .expr (.call (.name id) args) => if id = Marker.element then some args else none
  | _ => none

/-- The statement has the form of an iteration: a collection and one or two more arguments. -/
def iterationShape (args : List Expr) : Bool :=
  args.length == 2 || args.length == 3

mutual

/-- Resolve the calls among statements whose output goes into the array `target`. A block directly
after an element holds the element's children. -/
def resolveAll (settings : Settings) (target : String) (stmts : List Stmt) :
    Resolving (List Stmt) :=
  match stmts with
  | [] => return []
  | s :: .block inner :: rest =>
    match elementCall? s with
    | some args => do
      let array ← elementArray args
      let children ← resolveAll settings array inner
      let rest ← resolveAll settings target rest
      return settings.elementBlock target array args children :: rest
    | none => do
      let s ← resolveStmt settings target s
      let inner ← resolveAll settings target inner
      let rest ← resolveAll settings target rest
      return s :: .block inner :: rest
  | s :: rest => do
    let s ← resolveStmt settings target s
    let rest ← resolveAll settings target rest
    return s :: rest

/-- Resolve the calls in a statement whose output goes into the array `target`. -/
def resolveStmt (settings : Settings) (target : String) (s : Stmt) : Resolving Stmt :=
  match s with
  | .expr (.call (.name id) args) =>
    if id = Marker.element then do
      let array ← elementArray args
      return settings.elementBlock target array args []
    else if id = Marker.text then do
      let value ← onlyArgument id args
      return push target value
    else if id = Marker.raw then do
      let value ← onlyArgument id args
      return push target (settings.rawMarkup value)
    else if id = Marker.iterate then
      if iterationShape args then do
        let args ← resolveIteration settings args
        return push target (.call (.name id) args)
      else throw (.iterationArguments args.length)
    else do
      let args ← resolveCallbacks settings target args
      return .expr (.call (.name id) args)
  | .expr e => do return .expr (← resolveChain settings target e)
  | .block body => do return .block (← resolveAll settings target body)
  | .ifThen test yes => do return .ifThen test (← resolveStmt settings target yes)
  | .ifElse test yes no => do
    let yes ← resolveStmt settings target yes
    let no ← resolveStmt settings target no
    return .ifElse test yes no
  | .loop start test next body => do
    return .loop start test next (← resolveStmt settings target body)
  | .loopIn item collection body => do
    return .loopIn item collection (← resolveStmt settings target body)
  | .loopVarIn item collection body => do
    return .loopVarIn item collection (← resolveStmt settings target body)
  | .while test body => do return .while test (← resolveStmt settings target body)
  | .doWhile body test => do return .doWhile (← resolveStmt settings target body) test
  | .withScope scope body => do return .withScope scope (← resolveStmt settings target body)
  | .label name body => do return .label name (← resolveStmt settings target body)
  | .switch subject clauses => do
    return .switch subject (← resolveClauses settings target clauses)
  | .tryCatch body param handler => do
    let body ← resolveAll settings target body
    let handler ← resolveAll settings target handler
    return .tryCatch body param handler
  | .tryFinally body finalizer => do
    let body ← resolveAll settings target body
    let finalizer ← resolveAll settings target finalizer
    return .tryFinally body finalizer
  | .tryCatchFinally body param handler finalizer => do
    let body ← resolveAll settings target body
    let handler ← resolveAll settings target handler
    let finalizer ← resolveAll settings target finalizer
    return .tryCatchFinally body param handler finalizer
  | other => return other

/-- Resolve the calls inside the functions handed along a chain such as `a.b(f).c(g)`, the last
first. -/
def resolveChain (settings : Settings) (target : String) (e : Expr) : Resolving Expr :=
  match e with
  | .call (.dot owner field) args => do
    let args ← resolveCallbacks settings target args
    let owner ← resolveChain settings target owner
    return .call (.dot owner field) args
  | .call callee args => do
    let args ← resolveCallbacks settings target args
    return .call callee args
  | other => return other

/-- Resolve the calls inside the functions among arguments; they output into the array around the
call. -/
def resolveCallbacks (settings : Settings) (target : String) (args : List Expr) :
    Resolving (List Expr) :=
  match args with
  | [] => return []
  | arg :: rest => do
    let arg ← match arg with
      | .func name params body => do
        let body ← resolveAll settings target body
        pure (.func name params body)
      | other => pure other
    let rest ← resolveCallbacks settings target rest
    return arg :: rest

/-- Resolve the calls inside the functions of an iteration, which follow its collection. -/
def resolveIteration (settings : Settings) (args : List Expr) : Resolving (List Expr) :=
  match args with
  | [] => return []
  | collection :: callbacks => do
    let callbacks ← resolveIterators settings callbacks
    return collection :: callbacks

/-- Resolve the calls inside the functions of an iteration; each collects into an array of its
own. -/
def resolveIterators (settings : Settings) (callbacks : List Expr) : Resolving (List Expr) :=
  match callbacks with
  | [] => return []
  | .func name params body :: rest => do
    let array ← fresh "$children"
    let body ← resolveAll settings array body
    let rest ← resolveIterators settings rest
    return .func name params (collectingBody array body) :: rest
  | _ :: _ => throw .notFunction

/-- Resolve the calls in the clauses of a switch. -/
def resolveClauses (settings : Settings) (target : String) (clauses : List Clause) :
    Resolving (List Clause) :=
  match clauses with
  | [] => return []
  | .on label body :: rest => do
    let body ← resolveAll settings target body
    let rest ← resolveClauses settings target rest
    return .on label body :: rest
  | .otherwise body :: rest => do
    let body ← resolveAll settings target body
    let rest ← resolveClauses settings target rest
    return .otherwise body :: rest

end

/-- The render function around resolved statements. -/
def Settings.renderFunction (settings : Settings) (root : String) (body : List Stmt) : Stmt :=
  .func settings.functionName ["block"]
    (declare root (.array []) :: body ++ [.ret (some (soleOrAll root))])

/-- The program of the render function, before the check for names that are left. -/
def build (settings : Settings) (program : Program) : Resolving Program := do
  let root ← fresh "$children"
  let body ← resolveAll settings root program
  return [settings.renderFunction root body]

/-- The first reserved name that a finished program may not hold. -/
def leftover? (program : Program) : Option String :=
  (stmtNames program).find? (Marker.resolved.contains ·)

/-- The render function of a program with reserved calls. -/
def resolve (settings : Settings) (program : Program) : Except Fault Program :=
  match (build settings program).run 0 with
  | .error fault => .error fault
  | .ok (result, _) =>
    match leftover? result with
    | some name => .error (.unresolved name)
    | none => .ok result

end Espalier.Render
