import Espalier.Compile
import Espalier.Proofs.Compress.Merging

/-!
# Merged declarations keep the behaviour

A program whose scopes have merged declarations differs from the program before in two ways. Within
a scope, assignments stand where declarations were, and the runs are equal. In the bodies of
functions inside its expressions, the events differ as far as the bodies do, and these behave alike
by induction on the tree: every way to build a run takes runs that are alike to runs that are alike
(`Run.Alike`).

Main statement: `compress_alike`.
-/

namespace Espalier.Script

/-! ## Runs that are alike -/

/-- Courses that are the same up to the bodies of functions in their events. -/
structure Course.Alike (course course' : Course) : Prop where
  events : List.Forall₂ Event.Alike course.events course'.events
  completion : course'.completion = course.completion
  answers : course'.answers = course.answers

/-- Runs that come to the same against every oracle, up to the bodies of functions. -/
def Run.Alike (r r' : Run) : Prop :=
  ∀ answers, (r answers).Alike (r' answers)

theorem events_refl (events : List Event) : List.Forall₂ Event.Alike events events :=
  List.forall₂_same.2 fun event _ => .refl event

theorem events_append {events₁ events₁' events₂ events₂' : List Event}
    (h₁ : List.Forall₂ Event.Alike events₁ events₁')
    (h₂ : List.Forall₂ Event.Alike events₂ events₂') :
    List.Forall₂ Event.Alike (events₁ ++ events₂) (events₁' ++ events₂') :=
  List.rel_append h₁ h₂

namespace Run.Alike

variable {r r' next next' : Run}

theorem refl (r : Run) : Alike r r := fun answers => ⟨events_refl (r answers).events, rfl, rfl⟩

theorem emit {event event' : Event} (hevent : event.Alike event') (h : Alike r r') :
    Alike (.emit event r) (.emit event' r') := fun answers =>
  ⟨.cons hevent (h answers).events, (h answers).completion, (h answers).answers⟩

theorem ask {onTake onTake' onLeave onLeave' onExit onExit' : Run} (htake : Alike onTake onTake')
    (hleave : Alike onLeave onLeave') (hexit : Alike onExit onExit') :
    Alike (.ask onTake onLeave onExit) (.ask onTake' onLeave' onExit')
  | [] => ⟨.nil, rfl, rfl⟩
  | .take :: answers => htake answers
  | .leave :: answers => hleave answers
  | .exit :: answers => hexit answers

theorem bind {after after' : Completion → Run} (h : Alike r r')
    (hafter : ∀ c, Alike (after c) (after' c)) : Alike (r.bind after) (r'.bind after') := by
  intro answers
  have hfirst := h answers
  have hlater : (after (r answers).completion (r answers).answers).Alike
      (after' (r' answers).completion (r' answers).answers) := by
    rw [hfirst.completion, hfirst.answers]
    exact hafter (r answers).completion (r answers).answers
  exact ⟨events_append hfirst.events hlater.events, hlater.completion, hlater.answers⟩

theorem andThen (h : Alike r r') (hnext : Alike next next') :
    Alike (r.andThen next) (r'.andThen next') := by
  refine h.bind fun c => ?_
  cases c with
  | normal => exact hnext
  | _ => exact refl _

theorem after (h : Alike r r') (hnext : Alike next next') :
    Alike (r.after next) (r'.after next') := by
  refine h.bind fun c => ?_
  cases c with
  | normal => exact hnext
  | thrown | pending => exact refl _
  | _ => exact emit (.refl _) (ask hnext (refl _) (refl _))

theorem handle (h : Alike r r') (hnext : Alike next next') :
    Alike (r.handle next) (r'.handle next') := by
  refine h.bind fun c => ?_
  cases c with
  | thrown => exact hnext
  | _ => exact refl _

theorem always (h : Alike r r') (hnext : Alike next next') :
    Alike (r.always next) (r'.always next') := by
  refine h.bind fun c => ?_
  cases c with
  | pending => exact refl _
  | _ => exact hnext.bind fun _ => refl _

theorem occur {event event' : Event} (hevent : event.Alike event') :
    Alike (.occur event) (.occur event') :=
  emit hevent (refl _)

/-- A loop asks at least once in each pass, so the passes that are left have fewer answers. -/
theorem loop {pass pass' : Run → Run}
    (hpass : ∀ again again', Alike again again' → Alike (pass again) (pass' again')) :
    Alike (.loop pass) (.loop pass') := by
  intro answers
  induction hn : answers.length using Nat.strongRecOn generalizing answers with
  | ind n ih =>
    rw [Run.loop, Run.loop]
    refine hpass _ _ (fun rest => ?_) answers
    split
    case isTrue hlt => exact ih rest.length (hn ▸ hlt) rest rfl
    case isFalse => exact ⟨.nil, rfl, rfl⟩

end Run.Alike

/-! ## Expressions that are alike -/

theorem Expr.Alike.name_iff {e e' : Expr} (h : e.Alike e') (id : String) :
    e = .name id ↔ e' = .name id := by
  constructor
  · rintro rfl
    cases h
    rfl
  · rintro rfl
    cases h
    rfl

theorem Expr.event_assign {left : Expr} (hleft : ∀ id, left ≠ .name id) (op : AssignOp)
    (right : Expr) : (Expr.assign op left right).event = .eval (.assign op left right) := by
  cases left with
  | name id => exact absurd rfl (hleft id)
  | _ => cases op <;> rfl

theorem Expr.Alike.event {e e' : Expr} (h : e.Alike e') : e.event.Alike e'.event := by
  cases h with
  | refl => exact .refl _
  | @assign op left left' right right' hleft hright =>
    by_cases hname : ∃ id, left = .name id
    · obtain ⟨id, rfl⟩ := hname
      obtain rfl := (hleft.name_iff id).1 rfl
      cases op with
      | plain => exact .assign hright
      | _ => exact .eval (.assign hleft hright)
    · have hname' : ∀ id, left' ≠ .name id := fun id h => hname ⟨id, (hleft.name_iff id).2 h⟩
      rw [Expr.event_assign (not_exists.1 hname), Expr.event_assign hname']
      exact .eval (.assign hleft hright)
  | array h => exact .eval (.array h)
  | object h => exact .eval (.object h)
  | group h => exact .eval (.group h)
  | func h => exact .eval (.func h)
  | dot h => exact .eval (.dot h)
  | index h h' => exact .eval (.index h h')
  | call h h' => exact .eval (.call h h')
  | new h h' => exact .eval (.new h h')
  | newBare h => exact .eval (.newBare h)
  | unary h => exact .eval (.unary h)
  | step h => exact .eval (.step h)
  | binary h h' => exact .eval (.binary h h')
  | cond h h' h'' => exact .eval (.cond h h' h'')
  | comma h h' => exact .eval (.comma h h')

theorem Expr.Alike.run : ∀ {e e' : Expr}, e.Alike e' → Run.Alike e.run e'.run
  | _, _, .refl e => .refl e.run
  | _, _, .comma hleft hright => hleft.run.andThen hright.run
  | _, _, h@(.array _) | _, _, h@(.object _) | _, _, h@(.group _) | _, _, h@(.func _)
  | _, _, h@(.dot _) | _, _, h@(.index _ _) | _, _, h@(.call _ _) | _, _, h@(.new _ _)
  | _, _, h@(.newBare _) | _, _, h@(.unary _) | _, _, h@(.step _) | _, _, h@(.binary _ _)
  | _, _, h@(.assign _ _) | _, _, h@(.cond _ _ _) => .occur h.event

theorem Expr.Alike.written : ∀ {e e' : Expr}, e.Alike e' →
    List.Forall₂ Event.Alike e.written e'.written
  | _, _, .refl e => events_refl e.written
  | _, _, .comma hleft hright => events_append hleft.written hright.written
  | _, _, h@(.array _) | _, _, h@(.object _) | _, _, h@(.group _) | _, _, h@(.func _)
  | _, _, h@(.dot _) | _, _, h@(.index _ _) | _, _, h@(.call _ _) | _, _, h@(.new _ _)
  | _, _, h@(.newBare _) | _, _, h@(.unary _) | _, _, h@(.step _) | _, _, h@(.binary _ _)
  | _, _, h@(.assign _ _) | _, _, h@(.cond _ _ _) => .cons h.event .nil

theorem Expr.Alike.test {e e' : Expr} {yes yes' no no' : Run} (h : e.Alike e')
    (hyes : Run.Alike yes yes') (hno : Run.Alike no no') :
    Run.Alike (e.test yes no) (e'.test yes' no') :=
  h.run.andThen (.ask hyes hno (.refl _))

/-! ## Variables -/

theorem Binding.name_hoisted (b : Binding) : b.hoisted.name = b.name := by
  cases b <;> rfl

theorem names_hoistedBindings (bindings : List Binding) :
    (hoistedBindings bindings).map (·.name) = bindings.map (·.name) := by
  induction bindings with
  | nil => rfl
  | cons b bs ih => rw [hoistedBindings, List.map_cons, List.map_cons, b.name_hoisted, ih]

theorem LoopStart.varNames_hoisted (start : LoopStart) :
    start.hoisted.varNames = start.varNames := by
  cases start with
  | vars bindings => exact names_hoistedBindings bindings
  | _ => rfl

mutual

theorem Stmt.varNames_hoisted : ∀ s : Stmt, s.hoisted.varNames = s.varNames
  | .vars bindings => names_hoistedBindings bindings
  | .block body => varNamesAll_hoisted body
  | .ifThen _ body | .loopIn _ _ body | .while _ body | .doWhile body _ | .withScope _ body
  | .label _ body => body.varNames_hoisted
  | .ifElse _ yes no => by
    rw [Stmt.hoisted, Stmt.varNames, Stmt.varNames, yes.varNames_hoisted, no.varNames_hoisted]
  | .loop start _ _ body => by
    rw [Stmt.hoisted, Stmt.varNames, Stmt.varNames, start.varNames_hoisted, body.varNames_hoisted]
  | .loopVarIn item _ body => by
    rw [Stmt.hoisted, Stmt.varNames, Stmt.varNames, item.name_hoisted, body.varNames_hoisted]
  | .switch _ clauses => varNamesClauses_hoisted clauses
  | .tryCatch body _ last | .tryFinally body last => by
    rw [Stmt.hoisted, Stmt.varNames, Stmt.varNames, varNamesAll_hoisted body,
      varNamesAll_hoisted last]
  | .tryCatchFinally body _ handler finalizer => by
    rw [Stmt.hoisted, Stmt.varNames, Stmt.varNames, varNamesAll_hoisted body,
      varNamesAll_hoisted handler, varNamesAll_hoisted finalizer]
  | .empty | .expr _ | .continue _ | .break _ | .ret _ | .throw _ | .debugger | .func _ _ _ => rfl

theorem varNamesAll_hoisted : ∀ ss : List Stmt, varNamesAll (hoistedStmts ss) = varNamesAll ss
  | [] => rfl
  | s :: ss => by
    rw [hoistedStmts, varNamesAll, varNamesAll, s.varNames_hoisted, varNamesAll_hoisted ss]

theorem varNamesClauses_hoisted : ∀ clauses : List Clause,
    varNamesClauses (hoistedClauses clauses) = varNamesClauses clauses
  | [] => rfl
  | .on _ body :: clauses | .otherwise body :: clauses => by
    rw [hoistedClauses, varNamesClauses, varNamesClauses, varNamesAll_hoisted body,
      varNamesClauses_hoisted clauses]

end

/-! ## Scopes -/

section
variable {body : List Stmt} (hrun : Run.Alike (runAll body) (runAll (hoistedStmts body)))
  (hwritten : List.Forall₂ Event.Alike (writtenAll body) (writtenAll (hoistedStmts body)))
include hrun hwritten

/-- A scope that is not merged itself: the body of an accessor. -/
theorem Scope.alike_hoisted : Scope.Alike body (hoistedStmts body) :=
  .mk (fun name => by rw [varNamesAll_hoisted]) (fun answers => (hrun answers).completion)
    (fun answers => (hrun answers).answers) (fun answers => (hrun answers).events) hwritten

/-- A scope whose declarations are merged. -/
theorem Scope.alike_merged : Scope.Alike body (mergeDeclarations (hoistedStmts body)) := by
  rw [← runAll_mergeDeclarations (hoistedStmts body)] at hrun
  rw [← writtenAll_mergeDeclarations (hoistedStmts body)] at hwritten
  refine .mk (fun name => ?_) (fun answers => (hrun answers).completion)
    (fun answers => (hrun answers).answers) (fun answers => (hrun answers).events) hwritten
  rw [mem_varNamesAll_mergeDeclarations, varNamesAll_hoisted]

end

/-! ## Clauses -/

theorem findIdx?_hoisted (clauses : List Clause) :
    (hoistedClauses clauses).findIdx? Clause.isOtherwise
      = clauses.findIdx? Clause.isOtherwise := by
  induction clauses with
  | nil => rfl
  | cons clause clauses ih =>
    cases clause <;>
      rw [hoistedClauses, List.findIdx?_cons, List.findIdx?_cons, ih] <;> rfl

/-! ## The whole tree -/

mutual

/-- An expression and the one with merged declarations in its functions. -/
theorem Expr.alike_hoisted : ∀ e : Expr, e.Alike e.hoisted
  | .array items => .array (items_alike_hoisted items)
  | .object properties => .object (properties_alike_hoisted properties)
  | .group inner => .group inner.alike_hoisted
  | .func _ _ body => .func (Scope.alike_merged (runAll_hoisted body) (writtenAll_hoisted body))
  | .dot owner _ => .dot owner.alike_hoisted
  | .index owner position => .index owner.alike_hoisted position.alike_hoisted
  | .call callee args => .call callee.alike_hoisted (exprs_alike_hoisted args)
  | .new callee args => .new callee.alike_hoisted (exprs_alike_hoisted args)
  | .newBare callee => .newBare callee.alike_hoisted
  | .unary _ operand => .unary operand.alike_hoisted
  | .step operand _ => .step operand.alike_hoisted
  | .binary _ left right => .binary left.alike_hoisted right.alike_hoisted
  | .assign _ left right => .assign left.alike_hoisted right.alike_hoisted
  | .cond test yes no => .cond test.alike_hoisted yes.alike_hoisted no.alike_hoisted
  | .comma left right => .comma left.alike_hoisted right.alike_hoisted
  | .name _ | .this | .null | .bool _ | .number _ | .string _ | .regex _ => .refl _

theorem exprs_alike_hoisted : ∀ es : List Expr, List.Forall₂ Expr.Alike es (hoistedExprs es)
  | [] => .nil
  | e :: es => .cons e.alike_hoisted (exprs_alike_hoisted es)

theorem items_alike_hoisted : ∀ items : List Item,
    List.Forall₂ Item.Alike items (hoistedItems items)
  | [] => .nil
  | .elision commas :: items => .cons (.elision commas) (items_alike_hoisted items)
  | .value e :: items => .cons (.value e.alike_hoisted) (items_alike_hoisted items)

theorem properties_alike_hoisted : ∀ properties : List Property,
    List.Forall₂ Property.Alike properties (hoistedProperties properties)
  | [] => .nil
  | .field _ value :: properties =>
    .cons (.field value.alike_hoisted) (properties_alike_hoisted properties)
  | .getter _ body :: properties =>
    .cons (.getter (Scope.alike_hoisted (runAll_hoisted body) (writtenAll_hoisted body)))
      (properties_alike_hoisted properties)
  | .setter _ _ body :: properties =>
    .cons (.setter (Scope.alike_hoisted (runAll_hoisted body) (writtenAll_hoisted body)))
      (properties_alike_hoisted properties)

theorem runOptional_hoisted : ∀ e : Option Expr,
    Run.Alike (runOptional e) (runOptional (hoistedOptional e))
  | none => .refl _
  | some e => e.alike_hoisted.run

theorem Binding.run_hoisted : ∀ b : Binding, Run.Alike b.run b.hoisted.run
  | .bare _ => .refl _
  | .init _ value => .occur (.assign value.alike_hoisted)

theorem runBindings_hoisted : ∀ bindings : List Binding,
    Run.Alike (runBindings bindings) (runBindings (hoistedBindings bindings))
  | [] => .refl _
  | b :: bs => b.run_hoisted.andThen (runBindings_hoisted bs)

theorem LoopStart.run_hoisted : ∀ start : LoopStart, Run.Alike start.run start.hoisted.run
  | .nothing => .refl _
  | .vars bindings => runBindings_hoisted bindings
  | .expr e => e.alike_hoisted.run

/-- A statement and the one with merged declarations in its functions run alike. -/
theorem Stmt.run_hoisted : ∀ s : Stmt, Run.Alike s.run s.hoisted.run
  | .block body => runAll_hoisted body
  | .vars bindings => runBindings_hoisted bindings
  | .expr e => e.alike_hoisted.run
  | .ifThen test yes => test.alike_hoisted.test yes.run_hoisted (.refl _)
  | .ifElse test yes no => test.alike_hoisted.test yes.run_hoisted no.run_hoisted
  | .loop start test next body =>
    start.run_hoisted.andThen (.loop fun _ _ hagain => (runOptional_hoisted test).andThen
      (.ask (body.run_hoisted.after ((runOptional_hoisted next).andThen hagain)) (.refl _)
        (.refl _)))
  | .loopIn item collection body =>
    collection.alike_hoisted.run.andThen (.loop fun _ _ hagain =>
      .ask (.emit (.item item.alike_hoisted) (body.run_hoisted.after hagain)) (.refl _) (.refl _))
  | .loopVarIn item collection body => by
    rw [Stmt.hoisted, Stmt.run, Stmt.run, item.name_hoisted]
    exact item.run_hoisted.andThen (collection.alike_hoisted.run.andThen (.loop fun _ _ hagain =>
      .ask (.emit (.refl _) (body.run_hoisted.after hagain)) (.refl _) (.refl _)))
  | .while test body =>
    .loop fun _ _ hagain => test.alike_hoisted.test (body.run_hoisted.after hagain) (.refl _)
  | .doWhile body test =>
    .loop fun _ _ hagain => body.run_hoisted.after (test.alike_hoisted.test hagain (.refl _))
  | .ret value => (runOptional_hoisted value).andThen (.refl _)
  | .withScope scope body =>
    scope.alike_hoisted.run.andThen (.emit (.refl _) (body.run_hoisted.always (.refl _)))
  | .label _ body => .emit (.refl _) (body.run_hoisted.after (.refl _))
  | .switch subject clauses => by
    rw [Stmt.hoisted, Stmt.run, Stmt.run, select, select, findIdx?_hoisted]
    refine subject.alike_hoisted.run.andThen (Run.Alike.after ?_ (.refl _))
    refine selectFrom_hoisted clauses 0 (runFrom_hoisted clauses) ?_
    cases clauses.findIdx? Clause.isOtherwise with
    | none => exact .refl _
    | some position => exact runFrom_hoisted clauses position
  | .throw value => value.alike_hoisted.run.andThen (.refl _)
  | .tryCatch body _ handler =>
    (runAll_hoisted body).handle (.emit (.refl _) (runAll_hoisted handler))
  | .tryFinally body finalizer => (runAll_hoisted body).always (runAll_hoisted finalizer)
  | .tryCatchFinally body _ handler finalizer =>
    ((runAll_hoisted body).handle (.emit (.refl _) (runAll_hoisted handler))).always
      (runAll_hoisted finalizer)
  | .func _ _ body =>
    .emit (.declare (Scope.alike_merged (runAll_hoisted body) (writtenAll_hoisted body))) (.refl _)
  | .empty | .continue _ | .break _ | .debugger => .refl _

theorem runAll_hoisted : ∀ ss : List Stmt, Run.Alike (runAll ss) (runAll (hoistedStmts ss))
  | [] => .refl _
  | s :: ss => s.run_hoisted.andThen (runAll_hoisted ss)

theorem runFrom_hoisted : ∀ (clauses : List Clause) (position : Nat),
    Run.Alike (runFrom position clauses) (runFrom position (hoistedClauses clauses))
  | [], _ => .refl _
  | .on _ body :: clauses, 0 | .otherwise body :: clauses, 0 =>
    (runAll_hoisted body).andThen (runFrom_hoisted clauses 0)
  | .on _ _ :: clauses, position + 1 | .otherwise _ :: clauses, position + 1 =>
    runFrom_hoisted clauses position

theorem selectFrom_hoisted {found found' : Nat → Run} {missed missed' : Run} :
    ∀ (clauses : List Clause) (position : Nat), (∀ i, Run.Alike (found i) (found' i)) →
      Run.Alike missed missed' →
      Run.Alike (selectFrom position found missed clauses)
        (selectFrom position found' missed' (hoistedClauses clauses))
  | [], _, _, hmissed => hmissed
  | .on label _ :: clauses, position, hfound, hmissed =>
    label.alike_hoisted.test (hfound position)
      (selectFrom_hoisted clauses (position + 1) hfound hmissed)
  | .otherwise _ :: clauses, position, hfound, hmissed =>
    selectFrom_hoisted clauses (position + 1) hfound hmissed

theorem writtenOptional_hoisted : ∀ e : Option Expr,
    List.Forall₂ Event.Alike (writtenOptional e) (writtenOptional (hoistedOptional e))
  | none => .nil
  | some e => e.alike_hoisted.written

theorem Binding.written_hoisted : ∀ b : Binding,
    List.Forall₂ Event.Alike b.written b.hoisted.written
  | .bare _ => .nil
  | .init _ value => .cons (.assign value.alike_hoisted) .nil

theorem writtenBindings_hoisted : ∀ bindings : List Binding,
    List.Forall₂ Event.Alike (writtenBindings bindings) (writtenBindings (hoistedBindings bindings))
  | [] => .nil
  | b :: bs => events_append b.written_hoisted (writtenBindings_hoisted bs)

theorem LoopStart.written_hoisted : ∀ start : LoopStart,
    List.Forall₂ Event.Alike start.written start.hoisted.written
  | .nothing => .nil
  | .vars bindings => writtenBindings_hoisted bindings
  | .expr e => e.alike_hoisted.written

/-- The same is written in a statement and in the one with merged declarations in its functions. -/
theorem Stmt.written_hoisted : ∀ s : Stmt, List.Forall₂ Event.Alike s.written s.hoisted.written
  | .block body => writtenAll_hoisted body
  | .vars bindings => writtenBindings_hoisted bindings
  | .expr e => e.alike_hoisted.written
  | .ifThen test yes => events_append test.alike_hoisted.written yes.written_hoisted
  | .ifElse test yes no =>
    events_append (events_append test.alike_hoisted.written yes.written_hoisted) no.written_hoisted
  | .loop start test next body =>
    events_append (events_append (events_append start.written_hoisted
      (writtenOptional_hoisted test)) (writtenOptional_hoisted next)) body.written_hoisted
  | .loopIn item collection body =>
    events_append (.cons (.item item.alike_hoisted) collection.alike_hoisted.written)
      body.written_hoisted
  | .loopVarIn item collection body => by
    rw [Stmt.hoisted, Stmt.written, Stmt.written, item.name_hoisted]
    exact events_append (events_append (.cons (.refl _) item.written_hoisted)
      collection.alike_hoisted.written) body.written_hoisted
  | .while test body => events_append test.alike_hoisted.written body.written_hoisted
  | .doWhile body test => events_append body.written_hoisted test.alike_hoisted.written
  | .ret value => events_append (writtenOptional_hoisted value) (events_refl _)
  | .withScope scope body =>
    events_append scope.alike_hoisted.written (.cons (.refl _) body.written_hoisted)
  | .label _ body => .cons (.refl _) body.written_hoisted
  | .switch subject clauses =>
    events_append subject.alike_hoisted.written (writtenClauses_hoisted clauses)
  | .throw value => events_append value.alike_hoisted.written (events_refl _)
  | .tryCatch body _ handler =>
    events_append (writtenAll_hoisted body) (.cons (.refl _) (writtenAll_hoisted handler))
  | .tryFinally body finalizer =>
    events_append (writtenAll_hoisted body) (writtenAll_hoisted finalizer)
  | .tryCatchFinally body _ handler finalizer =>
    events_append (events_append (writtenAll_hoisted body)
      (.cons (.refl _) (writtenAll_hoisted handler))) (writtenAll_hoisted finalizer)
  | .func _ _ body =>
    .cons (.declare (Scope.alike_merged (runAll_hoisted body) (writtenAll_hoisted body))) .nil
  | .empty | .continue _ | .break _ | .debugger => events_refl _

theorem writtenAll_hoisted : ∀ ss : List Stmt,
    List.Forall₂ Event.Alike (writtenAll ss) (writtenAll (hoistedStmts ss))
  | [] => .nil
  | s :: ss => events_append s.written_hoisted (writtenAll_hoisted ss)

theorem writtenClauses_hoisted : ∀ clauses : List Clause,
    List.Forall₂ Event.Alike (writtenClauses clauses) (writtenClauses (hoistedClauses clauses))
  | [] => .nil
  | .on label body :: clauses =>
    events_append (events_append label.alike_hoisted.written (writtenAll_hoisted body))
      (writtenClauses_hoisted clauses)
  | .otherwise body :: clauses =>
    events_append (writtenAll_hoisted body) (writtenClauses_hoisted clauses)

end

/-- A program and its compressed form behave alike when declarations are merged, and so does every
function in them. -/
theorem compress_alike (options : CompressionOptions) (program : Program) :
    Scope.Alike program ({ options with hoistVars := true }.compress program).1 :=
  Scope.alike_merged (runAll_hoisted program) (writtenAll_hoisted program)

end Espalier.Script
