import Espalier.Script.Names

/-!
# Declarations and mentions in the order of the text

The trace of a program lists its identifiers from the first to the last, and tells where functions
begin and end. An identifier that a `var` statement declares is a declaration, every other
occurrence is a mention, also the one in the head of a loop. A name is visible at the end of a trace
if it is declared there and the function of the declaration has not ended since (`Visible`), and a
trace is scoped when each of its mentions is of a visible name (`Scoped`).

The trace of a tree ends every function that it begins, and its identifiers are those of the tree:
`Traced`.
-/

namespace Espalier.Script

/-! ## Steps -/

/-- What is passed on the way through a text. -/
inductive Step where
  /-- A function or an accessor begins. -/
  | enter
  /-- The function that began last ends. -/
  | leave
  /-- A `var` statement declares a name. -/
  | declare (name : String)
  /-- A name occurs otherwise. -/
  | mention (name : String)
  deriving DecidableEq

/-- The identifier of a step. -/
def Step.name? : Step → Option String
  | .declare name | .mention name => some name
  | .enter | .leave => none

/-- The name that a step declares. -/
def Step.declared? : Step → Option String
  | .declare name => some name
  | _ => none

/-- The names that are declared along a trace, one entry for each declaration. -/
def declared (steps : List Step) : List String :=
  steps.filterMap Step.declared?

/-- The number of functions around a place after a step, if the function around all of them goes
on. -/
def Step.depth : Nat → Step → Option Nat
  | depth, .enter => some (depth + 1)
  | 0, .leave => none
  | depth + 1, .leave => some depth
  | depth, .declare _ | depth, .mention _ => some depth

/-- The number of functions around the end of a trace, relative to a function that the trace does
not leave. -/
def depthAfter (depth : Nat) (steps : List Step) : Option Nat :=
  steps.foldlM Step.depth depth

/-- The trace ends in the function that it begins in, or in one nested in it, and never leaves it on
the way. -/
def StaysInside (steps : List Step) : Prop :=
  (depthAfter 0 steps).isSome = true

/-- The trace ends each function that it begins, and no other. -/
def Bracketed (steps : List Step) : Prop :=
  ∀ depth, depthAfter depth steps = some depth

/-- The name is declared on the way, in the function around the end of the trace or in one that has
this function nested in it. -/
def Visible (steps : List Step) (name : String) : Prop :=
  ∃ before after, steps = before ++ .declare name :: after ∧ StaysInside after

/-- Every mention of one of the names after `seen` is a mention of a visible name. -/
def Scoped (names : String → Prop) (seen steps : List Step) : Prop :=
  ∀ before name after, steps = before ++ .mention name :: after → names name →
    Visible (seen ++ before) name

section
variable {steps steps' seen : List Step} {name : String} {names : String → Prop}

theorem depthAfter_append (depth : Nat) (steps steps' : List Step) :
    depthAfter depth (steps ++ steps')
      = (depthAfter depth steps).bind (depthAfter · steps') :=
  List.foldlM_append

theorem Bracketed.nil : Bracketed [] := fun _ => rfl

theorem Bracketed.append (h : Bracketed steps) (h' : Bracketed steps') :
    Bracketed (steps ++ steps') := by
  intro depth
  rw [depthAfter_append, h depth]
  exact h' depth

theorem declared_append (steps steps' : List Step) :
    declared (steps ++ steps') = declared steps ++ declared steps' :=
  List.filterMap_append

/-- A function in a trace: the steps inside it, and its ends. -/
def inFunction (steps : List Step) : List Step :=
  .enter :: steps ++ [.leave]

theorem Bracketed.inFunction (h : Bracketed steps) : Bracketed (inFunction steps) := by
  intro depth
  show depthAfter (depth + 1) (steps ++ [.leave]) = some depth
  rw [depthAfter_append, h (depth + 1)]
  rfl

theorem declared_inFunction (steps : List Step) : declared (inFunction steps) = declared steps := by
  rw [inFunction, declared_append]
  exact List.append_nil (declared steps)

/-! ## Visible names -/

theorem Visible.mem_declared (h : Visible steps name) : name ∈ declared steps := by
  obtain ⟨before, after, rfl, -⟩ := h
  rw [declared_append]
  exact List.mem_append_right _ (List.mem_cons_self ..)

/-- A name that has just been declared. -/
theorem visible_declare (seen : List Step) (name : String) :
    Visible (seen ++ [.declare name]) name :=
  ⟨seen, [], rfl, rfl⟩

/-- A visible name stays visible as long as no more functions end than begin. -/
theorem Visible.append (h : Visible seen name)
    (hsteps : ∀ depth, (depthAfter depth steps).isSome = true) : Visible (seen ++ steps) name := by
  obtain ⟨before, after, rfl, hafter⟩ := h
  refine ⟨before, after ++ steps, by rw [List.append_assoc, List.cons_append], ?_⟩
  obtain ⟨depth, hdepth⟩ := Option.isSome_iff_exists.1 hafter
  rw [StaysInside, depthAfter_append, hdepth]
  exact hsteps depth

theorem Visible.append_bracketed (h : Visible seen name) (hsteps : Bracketed steps) :
    Visible (seen ++ steps) name :=
  h.append fun depth => by rw [hsteps depth, Option.isSome_some]

theorem Visible.enter (h : Visible seen name) : Visible (seen ++ [.enter]) name :=
  h.append fun _ => rfl

/-! ## Scoped traces -/

theorem Scoped.append (h : Scoped names seen steps) (h' : Scoped names (seen ++ steps) steps') :
    Scoped names seen (steps ++ steps') := by
  intro before name after hsplit hname
  obtain ⟨middle, rfl, hrest⟩ | ⟨middle, rfl, hrest⟩ := List.append_eq_append_iff.1 hsplit
  · rw [← List.append_assoc]
    exact h' middle name after hrest hname
  · cases middle with
    | nil =>
      have hvisible := h' [] name after hrest.symm hname
      rwa [List.append_nil, List.append_nil] at hvisible
    | cons step middle =>
      obtain ⟨rfl, -⟩ := List.cons.inj hrest
      exact h before name middle rfl hname

/-- A trace without mentions of the names. -/
theorem Scoped.of_forall (h : ∀ name, .mention name ∈ steps → ¬names name) :
    Scoped names seen steps := by
  rintro before name after rfl hname
  exact absurd hname (h name (List.mem_append_right _ (List.mem_cons_self ..)))

theorem Scoped.mention (h : Visible seen name) : Scoped names seen [.mention name] := by
  intro before name' after hsplit _
  obtain ⟨rfl, hrest⟩ | ⟨_, rfl, hrest⟩ := List.cons_eq_append_iff.1 hsplit
  · cases hrest
    rwa [List.append_nil]
  · exact absurd hrest.symm (List.append_ne_nil_of_right_ne_nil _ (List.cons_ne_nil _ _))

theorem Scoped.inFunction (h : Scoped names (seen ++ [.enter]) steps) :
    Scoped names seen (inFunction steps) := by
  show Scoped names seen ([.enter] ++ (steps ++ [.leave]))
  exact .append (.of_forall (by simp)) (h.append (.of_forall (by simp)))

end

/-! ## Traces of trees -/

/-- The steps through names that are no declarations. -/
def mentions (names : List String) : List Step :=
  names.map .mention

mutual

/-- The trace of an expression. -/
def Expr.trace : Expr → List Step
  | .name id => [.mention id]
  | .this | .null | .bool _ | .number _ | .string _ | .regex _ => []
  | .array items => itemTrace items
  | .object properties => propertyTrace properties
  | .group inner => inner.trace
  | .func name params body => inFunction (mentions (name.toList ++ params) ++ stmtTrace body)
  | .dot owner field => owner.trace ++ [.mention field]
  | .index owner position => owner.trace ++ position.trace
  | .call callee args => callee.trace ++ exprTrace args
  | .new callee args => callee.trace ++ exprTrace args
  | .newBare callee => callee.trace
  | .unary _ operand => operand.trace
  | .step operand _ => operand.trace
  | .binary _ left right => left.trace ++ right.trace
  | .assign _ left right => left.trace ++ right.trace
  | .cond test yes no => test.trace ++ yes.trace ++ no.trace
  | .comma left right => left.trace ++ right.trace

/-- The trace of several expressions. -/
def exprTrace : List Expr → List Step
  | [] => []
  | e :: es => e.trace ++ exprTrace es

/-- The trace of an expression that may be missing. -/
def optionalTrace : Option Expr → List Step
  | none => []
  | some e => e.trace

/-- The trace of an array's items. -/
def itemTrace : List Item → List Step
  | [] => []
  | .elision _ :: items => itemTrace items
  | .value e :: items => e.trace ++ itemTrace items

/-- The trace of an object's properties. -/
def propertyTrace : List Property → List Step
  | [] => []
  | .field key value :: properties => mentions key.names ++ value.trace ++ propertyTrace properties
  | .getter key body :: properties =>
    mentions key.names ++ inFunction (stmtTrace body) ++ propertyTrace properties
  | .setter key param body :: properties =>
    mentions key.names ++ inFunction ([.mention param] ++ stmtTrace body)
      ++ propertyTrace properties

/-- The trace of a variable with its initial value, where `step` is the step through its name. -/
def Binding.trace (step : String → Step) : Binding → List Step
  | .bare name => [step name]
  | .init name value => [step name] ++ value.trace

/-- The trace of several variables. -/
def bindingTrace (step : String → Step) : List Binding → List Step
  | [] => []
  | b :: bs => b.trace step ++ bindingTrace step bs

/-- The trace of what stands before the first semicolon of a loop head. -/
def LoopStart.trace : LoopStart → List Step
  | .nothing => []
  | .vars bindings => bindingTrace .mention bindings
  | .expr e => e.trace

/-- The trace of a statement. -/
def Stmt.trace : Stmt → List Step
  | .block body => stmtTrace body
  | .vars bindings => bindingTrace .declare bindings
  | .empty | .debugger => []
  | .expr e => e.trace
  | .ifThen test yes => test.trace ++ yes.trace
  | .ifElse test yes no => test.trace ++ yes.trace ++ no.trace
  | .loop start test next body =>
    start.trace ++ optionalTrace test ++ optionalTrace next ++ body.trace
  | .loopIn item collection body => item.trace ++ collection.trace ++ body.trace
  | .loopVarIn item collection body => item.trace .mention ++ collection.trace ++ body.trace
  | .while test body => test.trace ++ body.trace
  | .doWhile body test => body.trace ++ test.trace
  | .continue label => mentions label.toList
  | .break label => mentions label.toList
  | .ret value => optionalTrace value
  | .withScope scope body => scope.trace ++ body.trace
  | .label name body => [.mention name] ++ body.trace
  | .switch subject clauses => subject.trace ++ clauseTrace clauses
  | .throw value => value.trace
  | .tryCatch body param handler => stmtTrace body ++ ([.mention param] ++ stmtTrace handler)
  | .tryFinally body finalizer => stmtTrace body ++ stmtTrace finalizer
  | .tryCatchFinally body param handler finalizer =>
    stmtTrace body ++ ([.mention param] ++ stmtTrace handler) ++ stmtTrace finalizer
  | .func name params body => [.mention name] ++ inFunction (mentions params ++ stmtTrace body)

/-- The trace of several statements. -/
def stmtTrace : List Stmt → List Step
  | [] => []
  | s :: ss => s.trace ++ stmtTrace ss

/-- The trace of the clauses of a switch. -/
def clauseTrace : List Clause → List Step
  | [] => []
  | .on label body :: clauses => label.trace ++ stmtTrace body ++ clauseTrace clauses
  | .otherwise body :: clauses => stmtTrace body ++ clauseTrace clauses

end

theorem stmtTrace_append (ss ss' : List Stmt) :
    stmtTrace (ss ++ ss') = stmtTrace ss ++ stmtTrace ss' := by
  induction ss with
  | nil => rfl
  | cons s ss ih => rw [List.cons_append, stmtTrace, stmtTrace, ih, List.append_assoc]

/-- The trace ends the functions that it begins, and its identifiers are the given ones, in any
order. -/
structure Traced (names : List String) (steps : List Step) : Prop where
  bracketed : Bracketed steps
  mem_iff : ∀ name, name ∈ steps.filterMap Step.name? ↔ name ∈ names

namespace Traced

variable {a b : List String} {u v : List Step}

theorem nil : Traced [] [] := ⟨.nil, fun _ => Iff.rfl⟩

theorem mention (name : String) : Traced [name] [.mention name] := ⟨fun _ => rfl, fun _ => Iff.rfl⟩

theorem declare (name : String) : Traced [name] [.declare name] := ⟨fun _ => rfl, fun _ => Iff.rfl⟩

theorem append (ha : Traced a u) (hb : Traced b v) : Traced (a ++ b) (u ++ v) := by
  refine ⟨ha.bracketed.append hb.bracketed, fun name => ?_⟩
  rw [List.filterMap_append, List.mem_append, List.mem_append, ha.mem_iff, hb.mem_iff]

/-- The same in another order. -/
theorem append_swap (ha : Traced a u) (hb : Traced b v) : Traced (a ++ b) (v ++ u) := by
  refine ⟨hb.bracketed.append ha.bracketed, fun name => ?_⟩
  rw [List.filterMap_append, List.mem_append, List.mem_append, ha.mem_iff, hb.mem_iff, Or.comm]

theorem mentions : ∀ names : List String, Traced names (mentions names)
  | [] => nil
  | name :: names => (mention name).append (mentions names)

theorem inFunction (ha : Traced a u) : Traced a (inFunction u) := by
  refine ⟨ha.bracketed.inFunction, fun name => ?_⟩
  rw [← ha.mem_iff, Script.inFunction, List.filterMap_append]
  exact iff_of_eq (congrArg _ (List.append_nil _))

end Traced

mutual

theorem Expr.traced : ∀ e : Expr, Traced e.names e.trace
  | .name id => .mention id
  | .this | .null | .bool _ | .number _ | .string _ | .regex _ => .nil
  | .array items => itemTraced items
  | .object properties => propertyTraced properties
  | .group e | .newBare e | .unary _ e | .step e _ => e.traced
  | .func name params body =>
    ((Traced.mentions (name.toList ++ params)).append (stmtTraced body)).inFunction
  | .dot owner field => owner.traced.append (.mention field)
  | .index left right | .binary _ left right | .assign _ left right | .comma left right =>
    left.traced.append right.traced
  | .call callee args | .new callee args => callee.traced.append (exprTraced args)
  | .cond test yes no => (test.traced.append yes.traced).append no.traced

theorem exprTraced : ∀ es : List Expr, Traced (exprNames es) (exprTrace es)
  | [] => .nil
  | e :: es => e.traced.append (exprTraced es)

theorem optionalTraced : ∀ e : Option Expr, Traced (optionalNames e) (optionalTrace e)
  | none => .nil
  | some e => e.traced

theorem itemTraced : ∀ items : List Item, Traced (itemNames items) (itemTrace items)
  | [] => .nil
  | .elision _ :: items => itemTraced items
  | .value e :: items => e.traced.append (itemTraced items)

theorem propertyTraced : ∀ properties : List Property,
    Traced (propertyNames properties) (propertyTrace properties)
  | [] => .nil
  | .field key value :: properties =>
    ((Traced.mentions key.names).append value.traced).append (propertyTraced properties)
  | .getter key body :: properties =>
    ((Traced.mentions key.names).append (stmtTraced body).inFunction).append
      (propertyTraced properties)
  | .setter key param body :: properties =>
    ((Traced.mentions key.names).append ((Traced.mention param).append
      (stmtTraced body)).inFunction).append (propertyTraced properties)

theorem Binding.traced {step : String → Step} (hstep : ∀ name, Traced [name] [step name]) :
    ∀ b : Binding, Traced b.names (b.trace step)
  | .bare name => hstep name
  | .init name value => (hstep name).append value.traced

theorem bindingTraced {step : String → Step} (hstep : ∀ name, Traced [name] [step name]) :
    ∀ bindings : List Binding, Traced (bindingNames bindings) (bindingTrace step bindings)
  | [] => .nil
  | b :: bs => (b.traced hstep).append (bindingTraced hstep bs)

theorem LoopStart.traced : ∀ start : LoopStart, Traced start.names start.trace
  | .nothing => .nil
  | .vars bindings => bindingTraced .mention bindings
  | .expr e => e.traced

/-- The trace of a statement ends the functions that it begins and has the identifiers of the
statement. -/
theorem Stmt.traced : ∀ s : Stmt, Traced s.names s.trace
  | .block body => stmtTraced body
  | .vars bindings => bindingTraced .declare bindings
  | .empty | .debugger => .nil
  | .expr e | .throw e => e.traced
  | .ifThen e body | .while e body | .withScope e body => e.traced.append body.traced
  | .ifElse test yes no => (test.traced.append yes.traced).append no.traced
  | .loop start test next body =>
    ((start.traced.append (optionalTraced test)).append (optionalTraced next)).append body.traced
  | .loopIn item collection body => (item.traced.append collection.traced).append body.traced
  | .loopVarIn item collection body =>
    ((item.traced .mention).append collection.traced).append body.traced
  | .doWhile body test => test.traced.append_swap body.traced
  | .continue label | .break label => .mentions label.toList
  | .ret value => optionalTraced value
  | .label name body => (Traced.mention name).append body.traced
  | .switch subject clauses => subject.traced.append (clauseTraced clauses)
  | .tryCatch body param handler =>
    (stmtTraced body).append ((Traced.mention param).append (stmtTraced handler))
  | .tryFinally body finalizer => (stmtTraced body).append (stmtTraced finalizer)
  | .tryCatchFinally body param handler finalizer =>
    ((stmtTraced body).append ((Traced.mention param).append (stmtTraced handler))).append
      (stmtTraced finalizer)
  | .func name params body =>
    (Traced.mention name).append ((Traced.mentions params).append (stmtTraced body)).inFunction

theorem stmtTraced : ∀ ss : List Stmt, Traced (stmtNames ss) (stmtTrace ss)
  | [] => .nil
  | s :: ss => s.traced.append (stmtTraced ss)

theorem clauseTraced : ∀ clauses : List Clause, Traced (clauseNames clauses) (clauseTrace clauses)
  | [] => .nil
  | .on label body :: clauses =>
    (label.traced.append (stmtTraced body)).append (clauseTraced clauses)
  | .otherwise body :: clauses => (stmtTraced body).append (clauseTraced clauses)

end

end Espalier.Script
