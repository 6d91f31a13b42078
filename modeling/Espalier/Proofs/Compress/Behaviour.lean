import Espalier.Proofs.Script.Scopes
import Espalier.Script.Reader
import Mathlib.Data.List.Forall2

/-!
# What the body of a function does

Statements are run with their expressions left opaque: a run shows which variables are set to which
expressions and which other expressions are evaluated, in order, and how the body completes.
Whatever depends on values is decided by an oracle, a list of answers that is used up question by
question: whether an evaluation throws, which branch is taken, whether a loop goes on, which clause
of a switch matches, and where a jump ends. The rules of the language are one way to answer the
last question; nothing here depends on them. A run that finds no answer is pending, so that the
behaviour of a loop without end shows in the runs against longer and longer lists.

`Scope.Alike` compares two bodies: they declare the same variables, do the same against every
oracle and have the same written in them, where functions inside their expressions are compared in
the same way.
-/

namespace Espalier.Script

/-! ## Runs -/

/-- An answer of the oracle. -/
inductive Answer where
  /-- Go in: the branch, the clause or the round is taken. -/
  | take
  /-- Pass by: it is not taken. -/
  | leave
  /-- Get out: an exception is thrown, or a jump goes on outward. -/
  | exit
  deriving DecidableEq, Repr

/-- How statements complete. -/
inductive Completion where
  | normal
  | break (label : Option String)
  | continue (label : Option String)
  | ret
  | thrown
  /-- The oracle has no answer left. -/
  | pending
  deriving DecidableEq, Repr

/-- What a run shows. -/
inductive Event where
  /-- A variable is set to the value of an expression. -/
  | assign (name : String) (value : Expr)
  /-- Any other expression is evaluated. -/
  | eval (e : Expr)
  /-- A loop over a collection sets its item. -/
  | item (target : Expr)
  /-- A function declaration is passed. -/
  | declare (name : String) (params : List String) (body : List Stmt)
  /-- A handler begins, and its parameter holds the exception. -/
  | caught (param : String)
  /-- A labelled statement begins. -/
  | label (name : String)
  /-- The properties of an object become variables, or cease to be. -/
  | enter
  | leave
  /-- A jump has come to the end of a loop, a switch or a labelled statement. -/
  | jump (completion : Completion)
  | debugger

/-- What a run comes to: the events it shows, how it completes and the answers left. -/
structure Course where
  events : List Event
  completion : Completion
  answers : List Answer

/-- A run against an oracle. -/
abbrev Run := List Answer → Course

namespace Run

/-- Complete at once. -/
def stop (c : Completion) : Run := fun answers => ⟨[], c, answers⟩

/-- Show an event first. -/
def emit (event : Event) (r : Run) : Run := fun answers =>
  { r answers with events := event :: (r answers).events }

/-- Ask the oracle how to go on. -/
def ask (onTake onLeave onExit : Run) : Run
  | [] => ⟨[], .pending, []⟩
  | .take :: answers => onTake answers
  | .leave :: answers => onLeave answers
  | .exit :: answers => onExit answers

/-- Go on in a way that depends on how the run completes. -/
def bind (r : Run) (next : Completion → Run) : Run := fun answers =>
  let first := r answers
  let later := next first.completion first.answers
  { later with events := first.events ++ later.events }

/-- One run after another, if the first one completes normally. -/
def andThen (r next : Run) : Run :=
  r.bind fun
    | .normal => next
    | c => stop c

/-- Something happens, and the oracle says whether it throws. -/
def occur (event : Event) : Run :=
  emit event (ask (stop .normal) (stop .normal) (stop .thrown))

/-- What follows a body that is left by jumps: the oracle says where a jump ends. -/
def after (r next : Run) : Run :=
  r.bind fun
    | .normal => next
    | .thrown => stop .thrown
    | .pending => stop .pending
    | c => emit (.jump c) (ask next (stop .normal) (stop c))

/-- A run whose exceptions go to a handler. -/
def handle (r handler : Run) : Run :=
  r.bind fun
    | .thrown => handler
    | c => stop c

/-- A run with a second one behind it, however the first completes. The second one has the last
word unless it completes normally. -/
def always (r last : Run) : Run :=
  r.bind fun
    | .pending => stop .pending
    | c => last.bind fun
      | .normal => stop c
      | c' => stop c'

/-- Pass after pass. A pass is given what is to be done at its end, and asks the oracle before it
gets there: a pass that did not is the last one. -/
def loop (pass : Run → Run) (answers : List Answer) : Course :=
  pass (fun rest =>
    if rest.length < answers.length then loop pass rest else ⟨[], .pending, rest⟩) answers
termination_by answers.length

end Run

/-! ## Running statements -/

/-- The event of an expression: assignments to variables show as such, and every other expression
is opaque. -/
def Expr.event : Expr → Event
  | .assign .plain (.name id) value => .assign id value
  | e => .eval e

/-- Evaluate an expression. A comma runs its sides from left to right. -/
def Expr.run : Expr → Run
  | .comma left right => left.run.andThen right.run
  | e => .occur e.event

/-- Evaluate an expression that may be missing. -/
def runOptional : Option Expr → Run
  | none => .stop .normal
  | some e => e.run

/-- Evaluate an expression and branch. -/
def Expr.test (e : Expr) (yes no : Run) : Run :=
  e.run.andThen (.ask yes no (.stop .thrown))

/-- Give a variable its initial value, if it has one. -/
def Binding.run : Binding → Run
  | .bare _ => .stop .normal
  | .init name value => .occur (.assign name value)

/-- Give variables their initial values. -/
def runBindings : List Binding → Run
  | [] => .stop .normal
  | b :: bs => b.run.andThen (runBindings bs)

/-- Begin a loop. -/
def LoopStart.run : LoopStart → Run
  | .nothing => .stop .normal
  | .vars bindings => runBindings bindings
  | .expr e => e.run

/-- Compare the labels of clauses in order; `position` is that of the first of them. -/
def selectFrom (position : Nat) (found : Nat → Run) (missed : Run) : List Clause → Run
  | [] => missed
  | .on label _ :: clauses =>
    label.test (found position) (selectFrom (position + 1) found missed clauses)
  | .otherwise _ :: clauses => selectFrom (position + 1) found missed clauses

/-- Find the clause to begin with. -/
def select (clauses : List Clause) (found : Nat → Run) : Run :=
  selectFrom 0 found ((clauses.findIdx? Clause.isOtherwise).elim (.stop .normal) found) clauses

mutual

/-- Run a statement. -/
def Stmt.run : Stmt → Run
  | .block body => runAll body
  | .vars bindings => runBindings bindings
  | .empty => .stop .normal
  | .expr e => e.run
  | .ifThen test yes => test.test yes.run (.stop .normal)
  | .ifElse test yes no => test.test yes.run no.run
  | .loop start test next body =>
    start.run.andThen (.loop fun again => (runOptional test).andThen
      (.ask (body.run.after ((runOptional next).andThen again)) (.stop .normal) (.stop .thrown)))
  | .loopIn item collection body =>
    collection.run.andThen (.loop fun again =>
      .ask (.emit (.item item) (body.run.after again)) (.stop .normal) (.stop .thrown))
  | .loopVarIn item collection body =>
    item.run.andThen (collection.run.andThen (.loop fun again =>
      .ask (.emit (.item (.name item.name)) (body.run.after again)) (.stop .normal)
        (.stop .thrown)))
  | .while test body => .loop fun again => test.test (body.run.after again) (.stop .normal)
  | .doWhile body test => .loop fun again => body.run.after (test.test again (.stop .normal))
  | .continue label => .stop (.continue label)
  | .break label => .stop (.break label)
  | .ret value => (runOptional value).andThen (.stop .ret)
  | .withScope scope body =>
    scope.run.andThen (.emit .enter (body.run.always (.emit .leave (.stop .normal))))
  | .label name body => .emit (.label name) (body.run.after (.stop .normal))
  | .switch subject clauses =>
    subject.run.andThen ((select clauses fun i => runFrom i clauses).after (.stop .normal))
  | .throw value => value.run.andThen (.stop .thrown)
  | .debugger => .emit .debugger (.stop .normal)
  | .tryCatch body param handler =>
    (runAll body).handle (.emit (.caught param) (runAll handler))
  | .tryFinally body finalizer => (runAll body).always (runAll finalizer)
  | .tryCatchFinally body param handler finalizer =>
    ((runAll body).handle (.emit (.caught param) (runAll handler))).always (runAll finalizer)
  | .func name params body => .emit (.declare name params body) (.stop .normal)

/-- Run statements in sequence. -/
def runAll : List Stmt → Run
  | [] => .stop .normal
  | s :: ss => s.run.andThen (runAll ss)

/-- Run the bodies of clauses from a position on, one falling through to the next. -/
def runFrom : Nat → List Clause → Run
  | _, [] => .stop .normal
  | i + 1, _ :: clauses => runFrom i clauses
  | 0, .on _ body :: clauses => (runAll body).andThen (runFrom 0 clauses)
  | 0, .otherwise body :: clauses => (runAll body).andThen (runFrom 0 clauses)

end

/-! ## What is written in a body -/

/-- The events of an expression. -/
def Expr.written : Expr → List Event
  | .comma left right => left.written ++ right.written
  | e => [e.event]

/-- The events of an expression that may be missing. -/
def writtenOptional : Option Expr → List Event
  | none => []
  | some e => e.written

/-- The event of an initial value. -/
def Binding.written : Binding → List Event
  | .bare _ => []
  | .init name value => [.assign name value]

/-- The events of initial values. -/
def writtenBindings : List Binding → List Event
  | [] => []
  | b :: bs => b.written ++ writtenBindings bs

/-- The events of the start of a loop. -/
def LoopStart.written : LoopStart → List Event
  | .nothing => []
  | .vars bindings => writtenBindings bindings
  | .expr e => e.written

mutual

/-- The events that are written in a statement, whether a run gets there or not. -/
def Stmt.written : Stmt → List Event
  | .block body => writtenAll body
  | .vars bindings => writtenBindings bindings
  | .expr e => e.written
  | .ifThen test yes => test.written ++ yes.written
  | .ifElse test yes no => test.written ++ yes.written ++ no.written
  | .loop start test next body =>
    start.written ++ writtenOptional test ++ writtenOptional next ++ body.written
  | .loopIn item collection body => .item item :: collection.written ++ body.written
  | .loopVarIn item collection body =>
    .item (.name item.name) :: item.written ++ collection.written ++ body.written
  | .while test body => test.written ++ body.written
  | .doWhile body test => body.written ++ test.written
  | .continue label => [.jump (.continue label)]
  | .break label => [.jump (.break label)]
  | .ret value => writtenOptional value ++ [.jump .ret]
  | .withScope scope body => scope.written ++ .enter :: body.written
  | .label name body => .label name :: body.written
  | .switch subject clauses => subject.written ++ writtenClauses clauses
  | .throw value => value.written ++ [.jump .thrown]
  | .debugger => [.debugger]
  | .tryCatch body param handler => writtenAll body ++ .caught param :: writtenAll handler
  | .tryFinally body finalizer => writtenAll body ++ writtenAll finalizer
  | .tryCatchFinally body param handler finalizer =>
    writtenAll body ++ .caught param :: writtenAll handler ++ writtenAll finalizer
  | .func name params body => [.declare name params body]
  | .empty => []

/-- The events that are written in statements. -/
def writtenAll : List Stmt → List Event
  | [] => []
  | s :: ss => s.written ++ writtenAll ss

/-- The events that are written in clauses. -/
def writtenClauses : List Clause → List Event
  | [] => []
  | .on label body :: clauses => label.written ++ writtenAll body ++ writtenClauses clauses
  | .otherwise body :: clauses => writtenAll body ++ writtenClauses clauses

end

/-! ## Bodies that behave alike -/

mutual

/-- Expressions that are the same up to the bodies of their functions, which behave alike. -/
inductive Expr.Alike : Expr → Expr → Prop
  | refl (e : Expr) : Expr.Alike e e
  | array {items items' : List Item} : List.Forall₂ Item.Alike items items' →
      Expr.Alike (.array items) (.array items')
  | object {properties properties' : List Property} :
      List.Forall₂ Property.Alike properties properties' →
      Expr.Alike (.object properties) (.object properties')
  | group {e e' : Expr} : Expr.Alike e e' → Expr.Alike (.group e) (.group e')
  | func {name : Option String} {params : List String} {body body' : List Stmt} :
      Scope.Alike body body' → Expr.Alike (.func name params body) (.func name params body')
  | dot {owner owner' : Expr} {field : String} : Expr.Alike owner owner' →
      Expr.Alike (.dot owner field) (.dot owner' field)
  | index {owner owner' position position' : Expr} : Expr.Alike owner owner' →
      Expr.Alike position position' → Expr.Alike (.index owner position) (.index owner' position')
  | call {callee callee' : Expr} {args args' : List Expr} : Expr.Alike callee callee' →
      List.Forall₂ Expr.Alike args args' → Expr.Alike (.call callee args) (.call callee' args')
  | new {callee callee' : Expr} {args args' : List Expr} : Expr.Alike callee callee' →
      List.Forall₂ Expr.Alike args args' → Expr.Alike (.new callee args) (.new callee' args')
  | newBare {callee callee' : Expr} : Expr.Alike callee callee' →
      Expr.Alike (.newBare callee) (.newBare callee')
  | unary {op : UnaryOp} {operand operand' : Expr} : Expr.Alike operand operand' →
      Expr.Alike (.unary op operand) (.unary op operand')
  | step {op : StepOp} {operand operand' : Expr} : Expr.Alike operand operand' →
      Expr.Alike (.step operand op) (.step operand' op)
  | binary {op : BinaryOp} {left left' right right' : Expr} : Expr.Alike left left' →
      Expr.Alike right right' → Expr.Alike (.binary op left right) (.binary op left' right')
  | assign {op : AssignOp} {left left' right right' : Expr} : Expr.Alike left left' →
      Expr.Alike right right' → Expr.Alike (.assign op left right) (.assign op left' right')
  | cond {test test' yes yes' no no' : Expr} : Expr.Alike test test' → Expr.Alike yes yes' →
      Expr.Alike no no' → Expr.Alike (.cond test yes no) (.cond test' yes' no')
  | comma {left left' right right' : Expr} : Expr.Alike left left' → Expr.Alike right right' →
      Expr.Alike (.comma left right) (.comma left' right')

/-- Items of arrays that are the same up to the bodies of functions. -/
inductive Item.Alike : Item → Item → Prop
  | elision (commas : Nat) : Item.Alike (.elision commas) (.elision commas)
  | value {e e' : Expr} : Expr.Alike e e' → Item.Alike (.value e) (.value e')

/-- Properties that are the same up to the bodies of functions, their own included. -/
inductive Property.Alike : Property → Property → Prop
  | field {key : Key} {value value' : Expr} : Expr.Alike value value' →
      Property.Alike (.field key value) (.field key value')
  | getter {key : Key} {body body' : List Stmt} : Scope.Alike body body' →
      Property.Alike (.getter key body) (.getter key body')
  | setter {key : Key} {param : String} {body body' : List Stmt} : Scope.Alike body body' →
      Property.Alike (.setter key param body) (.setter key param body')

/-- Events that are the same up to the bodies of functions. -/
inductive Event.Alike : Event → Event → Prop
  | refl (event : Event) : Event.Alike event event
  | assign {name : String} {value value' : Expr} : Expr.Alike value value' →
      Event.Alike (.assign name value) (.assign name value')
  | eval {e e' : Expr} : Expr.Alike e e' → Event.Alike (.eval e) (.eval e')
  | item {target target' : Expr} : Expr.Alike target target' →
      Event.Alike (.item target) (.item target')
  | declare {name : String} {params : List String} {body body' : List Stmt} :
      Scope.Alike body body' → Event.Alike (.declare name params body) (.declare name params body')

/-- Bodies of functions that behave alike. They declare the same variables; against every oracle
they show the same events, complete in the same way and ask the same number of questions; and the
same is written in them, where no run gets included. -/
inductive Scope.Alike : List Stmt → List Stmt → Prop
  | mk {body body' : List Stmt}
      (varNames : ∀ name, name ∈ varNamesAll body' ↔ name ∈ varNamesAll body)
      (completion : ∀ answers, (runAll body' answers).completion = (runAll body answers).completion)
      (answers : ∀ answers, (runAll body' answers).answers = (runAll body answers).answers)
      (events : ∀ answers, List.Forall₂ Event.Alike (runAll body answers).events
        (runAll body' answers).events)
      (written : List.Forall₂ Event.Alike (writtenAll body) (writtenAll body')) :
      Scope.Alike body body'

end

end Espalier.Script
