import Espalier.Proofs.Compress.Preservation
import Espalier.Proofs.Compress.Prologue
import Mathlib.Data.List.Induction

/-!
# Compression reaches a normal form

A scope is in normal form when it has at most one declaration. Compression brings every scope there
in one step: a scope with more gets one that comes first, and a scope that is there already keeps
its statements, up to the bodies of the functions in it, which are scopes of their own
(`normalized_hoist`). A program whose scopes are all in normal form is left as it is
(`hoist_eq_self`), so a second step changes nothing.

Main statement: `compress_normalForm`.
-/

namespace Espalier.Script

/-! ## Statements without the functions inside them -/

mutual

/-- An expression with empty functions. Accessors are entered. -/
def Expr.hollow : Expr → Expr
  | .array items => .array (hollowItems items)
  | .object properties => .object (hollowProperties properties)
  | .group inner => .group inner.hollow
  | .func name params _ => .func name params []
  | .dot owner field => .dot owner.hollow field
  | .index owner position => .index owner.hollow position.hollow
  | .call callee args => .call callee.hollow (hollowExprs args)
  | .new callee args => .new callee.hollow (hollowExprs args)
  | .newBare callee => .newBare callee.hollow
  | .unary op operand => .unary op operand.hollow
  | .step operand op => .step operand.hollow op
  | .binary op left right => .binary op left.hollow right.hollow
  | .assign op left right => .assign op left.hollow right.hollow
  | .cond test yes no => .cond test.hollow yes.hollow no.hollow
  | .comma left right => .comma left.hollow right.hollow
  | .name id => .name id
  | .this => .this
  | .null => .null
  | .bool value => .bool value
  | .number text => .number text
  | .string text => .string text
  | .regex text => .regex text

/-- Expressions with empty functions. -/
def hollowExprs : List Expr → List Expr
  | [] => []
  | e :: es => e.hollow :: hollowExprs es

/-- An expression that may be missing, with empty functions. -/
def hollowOptional : Option Expr → Option Expr
  | none => none
  | some e => some e.hollow

/-- An array's items with empty functions. -/
def hollowItems : List Item → List Item
  | [] => []
  | .elision commas :: items => .elision commas :: hollowItems items
  | .value e :: items => .value e.hollow :: hollowItems items

/-- An object's properties with empty functions. -/
def hollowProperties : List Property → List Property
  | [] => []
  | .field key value :: properties => .field key value.hollow :: hollowProperties properties
  | .getter key body :: properties => .getter key (hollowStmts body) :: hollowProperties properties
  | .setter key param body :: properties =>
    .setter key param (hollowStmts body) :: hollowProperties properties

/-- A declared variable with empty functions in its initial value. -/
def Binding.hollow : Binding → Binding
  | .bare name => .bare name
  | .init name value => .init name value.hollow

/-- Declared variables with empty functions in their initial values. -/
def hollowBindings : List Binding → List Binding
  | [] => []
  | b :: bs => b.hollow :: hollowBindings bs

/-- The start of a loop head with empty functions. -/
def LoopStart.hollow : LoopStart → LoopStart
  | .nothing => .nothing
  | .vars bindings => .vars (hollowBindings bindings)
  | .expr e => .expr e.hollow

/-- A statement with empty functions: what it has in its own scope. -/
def Stmt.hollow : Stmt → Stmt
  | .block body => .block (hollowStmts body)
  | .vars bindings => .vars (hollowBindings bindings)
  | .empty => .empty
  | .expr e => .expr e.hollow
  | .ifThen test yes => .ifThen test.hollow yes.hollow
  | .ifElse test yes no => .ifElse test.hollow yes.hollow no.hollow
  | .loop start test next body =>
    .loop start.hollow (hollowOptional test) (hollowOptional next) body.hollow
  | .loopIn item collection body => .loopIn item.hollow collection.hollow body.hollow
  | .loopVarIn item collection body => .loopVarIn item.hollow collection.hollow body.hollow
  | .while test body => .while test.hollow body.hollow
  | .doWhile body test => .doWhile body.hollow test.hollow
  | .continue label => .continue label
  | .break label => .break label
  | .ret value => .ret (hollowOptional value)
  | .withScope scope body => .withScope scope.hollow body.hollow
  | .label name body => .label name body.hollow
  | .switch subject clauses => .switch subject.hollow (hollowClauses clauses)
  | .throw value => .throw value.hollow
  | .debugger => .debugger
  | .tryCatch body param handler => .tryCatch (hollowStmts body) param (hollowStmts handler)
  | .tryFinally body finalizer => .tryFinally (hollowStmts body) (hollowStmts finalizer)
  | .tryCatchFinally body param handler finalizer =>
    .tryCatchFinally (hollowStmts body) param (hollowStmts handler) (hollowStmts finalizer)
  | .func name params _ => .func name params []

/-- Statements with empty functions: what they have in their own scope. -/
def hollowStmts : List Stmt → List Stmt
  | [] => []
  | s :: ss => s.hollow :: hollowStmts ss

/-- Clauses with empty functions. -/
def hollowClauses : List Clause → List Clause
  | [] => []
  | .on label body :: clauses => .on label.hollow (hollowStmts body) :: hollowClauses clauses
  | .otherwise body :: clauses => .otherwise (hollowStmts body) :: hollowClauses clauses

end

mutual

/-- Merging inside the functions of an expression changes nothing else in it. -/
theorem Expr.hollow_hoisted : ∀ e : Expr, e.hoisted.hollow = e.hollow
  | .array items => congrArg Expr.array (hollowItems_hoisted items)
  | .object properties => congrArg Expr.object (hollowProperties_hoisted properties)
  | .group e | .dot e _ | .newBare e | .unary _ e | .step e _ => by
    rw [Expr.hoisted, Expr.hollow, Expr.hollow, e.hollow_hoisted]
  | .index left right | .binary _ left right | .assign _ left right | .comma left right => by
    rw [Expr.hoisted, Expr.hollow, Expr.hollow, left.hollow_hoisted, right.hollow_hoisted]
  | .call callee args | .new callee args => by
    rw [Expr.hoisted, Expr.hollow, Expr.hollow, callee.hollow_hoisted, hollowExprs_hoisted args]
  | .cond test yes no => by
    rw [Expr.hoisted, Expr.hollow, Expr.hollow, test.hollow_hoisted, yes.hollow_hoisted,
      no.hollow_hoisted]
  | .func _ _ _ | .name _ | .this | .null | .bool _ | .number _ | .string _ | .regex _ => rfl

theorem hollowExprs_hoisted : ∀ es : List Expr, hollowExprs (hoistedExprs es) = hollowExprs es
  | [] => rfl
  | e :: es => by
    rw [hoistedExprs, hollowExprs, hollowExprs, e.hollow_hoisted, hollowExprs_hoisted es]

theorem hollowOptional_hoisted : ∀ e : Option Expr,
    hollowOptional (hoistedOptional e) = hollowOptional e
  | none => rfl
  | some e => congrArg some e.hollow_hoisted

theorem hollowItems_hoisted : ∀ items : List Item,
    hollowItems (hoistedItems items) = hollowItems items
  | [] => rfl
  | .elision commas :: items => congrArg (Item.elision commas :: ·) (hollowItems_hoisted items)
  | .value e :: items => by
    rw [hoistedItems, hollowItems, hollowItems, e.hollow_hoisted, hollowItems_hoisted items]

theorem hollowProperties_hoisted : ∀ properties : List Property,
    hollowProperties (hoistedProperties properties) = hollowProperties properties
  | [] => rfl
  | .field _ value :: properties => by
    rw [hoistedProperties, hollowProperties, hollowProperties, value.hollow_hoisted,
      hollowProperties_hoisted properties]
  | .getter _ body :: properties | .setter _ _ body :: properties => by
    rw [hoistedProperties, hollowProperties, hollowProperties, hollowStmts_hoisted body,
      hollowProperties_hoisted properties]

theorem Binding.hollow_hoisted : ∀ b : Binding, b.hoisted.hollow = b.hollow
  | .bare _ => rfl
  | .init name value => congrArg (Binding.init name) value.hollow_hoisted

theorem hollowBindings_hoisted : ∀ bindings : List Binding,
    hollowBindings (hoistedBindings bindings) = hollowBindings bindings
  | [] => rfl
  | b :: bs => by
    rw [hoistedBindings, hollowBindings, hollowBindings, b.hollow_hoisted,
      hollowBindings_hoisted bs]

theorem LoopStart.hollow_hoisted : ∀ start : LoopStart, start.hoisted.hollow = start.hollow
  | .nothing => rfl
  | .vars bindings => congrArg LoopStart.vars (hollowBindings_hoisted bindings)
  | .expr e => congrArg LoopStart.expr e.hollow_hoisted

/-- Merging inside the functions of a statement changes nothing else in it. -/
theorem Stmt.hollow_hoisted : ∀ s : Stmt, s.hoisted.hollow = s.hollow
  | .block body => congrArg Stmt.block (hollowStmts_hoisted body)
  | .vars bindings => congrArg Stmt.vars (hollowBindings_hoisted bindings)
  | .expr e | .throw e => by rw [Stmt.hoisted, Stmt.hollow, Stmt.hollow, e.hollow_hoisted]
  | .ret value => congrArg Stmt.ret (hollowOptional_hoisted value)
  | .label name body => congrArg (Stmt.label name) body.hollow_hoisted
  | .ifThen e body | .while e body | .doWhile body e | .withScope e body => by
    rw [Stmt.hoisted, Stmt.hollow, Stmt.hollow, e.hollow_hoisted, body.hollow_hoisted]
  | .ifElse test yes no => by
    rw [Stmt.hoisted, Stmt.hollow, Stmt.hollow, test.hollow_hoisted, yes.hollow_hoisted,
      no.hollow_hoisted]
  | .loop start test next body => by
    rw [Stmt.hoisted, Stmt.hollow, Stmt.hollow, start.hollow_hoisted, hollowOptional_hoisted test,
      hollowOptional_hoisted next, body.hollow_hoisted]
  | .loopIn item collection body | .loopVarIn item collection body => by
    rw [Stmt.hoisted, Stmt.hollow, Stmt.hollow, item.hollow_hoisted, collection.hollow_hoisted,
      body.hollow_hoisted]
  | .switch subject clauses => by
    rw [Stmt.hoisted, Stmt.hollow, Stmt.hollow, subject.hollow_hoisted,
      hollowClauses_hoisted clauses]
  | .tryCatch body _ last | .tryFinally body last => by
    rw [Stmt.hoisted, Stmt.hollow, Stmt.hollow, hollowStmts_hoisted body, hollowStmts_hoisted last]
  | .tryCatchFinally body _ handler finalizer => by
    rw [Stmt.hoisted, Stmt.hollow, Stmt.hollow, hollowStmts_hoisted body,
      hollowStmts_hoisted handler, hollowStmts_hoisted finalizer]
  | .empty | .continue _ | .break _ | .debugger | .func _ _ _ => rfl

theorem hollowStmts_hoisted : ∀ ss : List Stmt, hollowStmts (hoistedStmts ss) = hollowStmts ss
  | [] => rfl
  | s :: ss => by
    rw [hoistedStmts, hollowStmts, hollowStmts, s.hollow_hoisted, hollowStmts_hoisted ss]

theorem hollowClauses_hoisted : ∀ clauses : List Clause,
    hollowClauses (hoistedClauses clauses) = hollowClauses clauses
  | [] => rfl
  | .on label body :: clauses => by
    rw [hoistedClauses, hollowClauses, hollowClauses, label.hollow_hoisted,
      hollowStmts_hoisted body, hollowClauses_hoisted clauses]
  | .otherwise body :: clauses => by
    rw [hoistedClauses, hollowClauses, hollowClauses, hollowStmts_hoisted body,
      hollowClauses_hoisted clauses]

end

/-! ## One scope -/

theorem varStatementsAll_toList (s : Option Stmt) :
    varStatementsAll s.toList = (s.getD (.block [])).varStatements := by
  cases s with
  | none => rfl
  | some s => exact List.append_nil s.varStatements

theorem varStatements_assigning (bindings : List Binding) :
    ((assigning? bindings).getD (.block [])).varStatements = [] := by
  rw [assigning?]
  cases assignments bindings <;> rfl

mutual

/-- With assignments in place of declarations, none is left. -/
theorem Stmt.varStatements_undeclared : ∀ s : Stmt,
    (s.undeclared.getD (.block [])).varStatements = []
  | .vars bindings => varStatements_assigning bindings
  | .block body => varStatementsAll_undeclared body
  | .ifThen _ body | .loop _ _ _ body | .loopIn _ _ body | .loopVarIn _ _ body | .while _ body
  | .doWhile body _ | .withScope _ body | .label _ body => body.varStatements_undeclared
  | .ifElse _ yes no => by
    simp only [Stmt.undeclared, Option.getD_some, Stmt.varStatements,
      yes.varStatements_undeclared, no.varStatements_undeclared, List.append_nil]
  | .switch _ clauses => varStatementsClauses_undeclared clauses
  | .tryCatch body _ last | .tryFinally body last => by
    simp only [Stmt.undeclared, Option.getD_some, Stmt.varStatements,
      varStatementsAll_undeclared body, varStatementsAll_undeclared last, List.append_nil]
  | .tryCatchFinally body _ handler finalizer => by
    simp only [Stmt.undeclared, Option.getD_some, Stmt.varStatements,
      varStatementsAll_undeclared body, varStatementsAll_undeclared handler,
      varStatementsAll_undeclared finalizer, List.append_nil]
  | .empty | .expr _ | .continue _ | .break _ | .ret _ | .throw _ | .debugger | .func _ _ _ => rfl

theorem varStatementsAll_undeclared : ∀ ss : List Stmt, varStatementsAll (undeclaredAll ss) = []
  | [] => rfl
  | s :: ss => by
    rw [undeclaredAll, varStatementsAll_append, varStatementsAll_toList,
      s.varStatements_undeclared, varStatementsAll_undeclared ss, List.append_nil]

theorem varStatementsClauses_undeclared : ∀ clauses : List Clause,
    varStatementsClauses (undeclaredClauses clauses) = []
  | [] => rfl
  | .on _ body :: clauses | .otherwise body :: clauses => by
    rw [undeclaredClauses, varStatementsClauses, varStatementsAll_undeclared body,
      varStatementsClauses_undeclared clauses, List.append_nil]

end

theorem firstOccurrences_eq_eraseDups (names : List String) :
    firstOccurrences names = names.eraseDups := by
  induction names using List.reverseRecOn with
  | nil => rfl
  | append_singleton names name ih =>
    have hstep : firstOccurrences (names ++ [name]) = if (firstOccurrences names).contains name
        then firstOccurrences names else firstOccurrences names ++ [name] := by
      rw [firstOccurrences, List.foldl_append]
      rfl
    rw [hstep, List.eraseDups_append, ← ih]
    by_cases hmem : name ∈ names <;>
      simp [List.removeAll, List.eraseDups_cons, mem_firstOccurrences, hmem]

/-- The names in the order of first declaration are those that the scope's own declarations bind. -/
theorem declaredNames_hoisted (body : List Stmt) :
    declaredNames (varStatementsAll (hoistedStmts body))
      = (boundNames (varStatementsAll body)).eraseDups := by
  rw [declaredNames, varStatementsAll_hoisted, firstOccurrences_eq_eraseDups, List.flatMap_map]
  simp only [names_hoistedBindings, boundNames]

/-- A scope in normal form has at most one declaration. -/
def Sparse (body : List Stmt) : Prop :=
  (varStatementsAll body).length ≤ 1

/-- What becomes of one scope in compression. -/
structure Normalized (body body' : List Stmt) : Prop where
  /-- At most one declaration is left. -/
  sparse : Sparse body'
  /-- Where there are several, one comes first instead of them: it has no initial values and every
  declared name once, in order of first declaration. -/
  merged : 2 ≤ (varStatementsAll body).length → ∃ rest, varStatementsAll rest = [] ∧
    body' = .vars ((boundNames (varStatementsAll body)).eraseDups.map .bare) :: rest
  /-- Where there are none or one, the statements stay, apart from what is in their functions. -/
  kept : (varStatementsAll body).length < 2 → hollowStmts body' = hollowStmts body

theorem normalized_hoist (body : List Stmt) : Normalized body (hoist body) := by
  have hlength :
      (varStatementsAll (hoistedStmts body)).length = (varStatementsAll body).length := by
    rw [varStatementsAll_hoisted, List.length_map]
  have hcases : hoist body = if (varStatementsAll body).length < 2 then hoistedStmts body
      else .vars ((boundNames (varStatementsAll body)).eraseDups.map .bare)
        :: undeclaredAll (hoistedStmts body) := by
    rw [← declaredNames_hoisted, ← hlength]
    rfl
  by_cases hfew : (varStatementsAll body).length < 2
  · rw [if_pos hfew] at hcases
    rw [hcases]
    refine ⟨?_, fun hmany => absurd hfew (by omega), fun _ => hollowStmts_hoisted body⟩
    rw [Sparse]
    omega
  · rw [if_neg hfew] at hcases
    have hrest := varStatementsAll_undeclared (hoistedStmts body)
    rw [hcases]
    refine ⟨?_, fun _ => ⟨_, hrest, rfl⟩, fun h => absurd h hfew⟩
    rw [Sparse, varStatementsAll, hrest]
    exact Nat.le_refl 1

/-! ## A program in normal form -/

theorem mergeDeclarations_of_sparse {body : List Stmt} (h : Sparse body) :
    mergeDeclarations body = body :=
  if_pos (Nat.lt_succ_of_le h)

mutual

/-- An expression whose functions are in normal form is left as it is. -/
theorem Expr.hoisted_eq_self : ∀ e : Expr, (∀ body ∈ e.functionBodies, Sparse body) →
    e.hoisted = e
  | .func name params body, h => by
    obtain ⟨hbody, hinner⟩ := List.forall_mem_cons.1 h
    rw [Expr.hoisted, hoistedStmts_eq_self body hinner, mergeDeclarations_of_sparse hbody]
  | .array items, h => congrArg Expr.array (hoistedItems_eq_self items h)
  | .object properties, h => congrArg Expr.object (hoistedProperties_eq_self properties h)
  | .group e, h | .dot e _, h | .newBare e, h | .unary _ e, h | .step e _, h => by
    rw [Expr.hoisted, e.hoisted_eq_self h]
  | .index left right, h | .binary _ left right, h | .assign _ left right, h
  | .comma left right, h => by
    obtain ⟨hleft, hright⟩ := List.forall_mem_append.1 h
    rw [Expr.hoisted, left.hoisted_eq_self hleft, right.hoisted_eq_self hright]
  | .call callee args, h | .new callee args, h => by
    obtain ⟨hcallee, hargs⟩ := List.forall_mem_append.1 h
    rw [Expr.hoisted, callee.hoisted_eq_self hcallee, hoistedExprs_eq_self args hargs]
  | .cond test yes no, h => by
    obtain ⟨h, hno⟩ := List.forall_mem_append.1 h
    obtain ⟨htest, hyes⟩ := List.forall_mem_append.1 h
    rw [Expr.hoisted, test.hoisted_eq_self htest, yes.hoisted_eq_self hyes, no.hoisted_eq_self hno]
  | .name _, _ | .this, _ | .null, _ | .bool _, _ | .number _, _ | .string _, _ | .regex _, _ => rfl

theorem hoistedExprs_eq_self : ∀ es : List Expr, (∀ body ∈ exprFunctionBodies es, Sparse body) →
    hoistedExprs es = es
  | [], _ => rfl
  | e :: es, h => by
    obtain ⟨he, hes⟩ := List.forall_mem_append.1 h
    rw [hoistedExprs, e.hoisted_eq_self he, hoistedExprs_eq_self es hes]

theorem hoistedOptional_eq_self : ∀ e : Option Expr,
    (∀ body ∈ optionalFunctionBodies e, Sparse body) → hoistedOptional e = e
  | none, _ => rfl
  | some e, h => congrArg some (e.hoisted_eq_self h)

theorem hoistedItems_eq_self : ∀ items : List Item,
    (∀ body ∈ itemFunctionBodies items, Sparse body) → hoistedItems items = items
  | [], _ => rfl
  | .elision commas :: items, h =>
    congrArg (Item.elision commas :: ·) (hoistedItems_eq_self items h)
  | .value e :: items, h => by
    obtain ⟨he, hitems⟩ := List.forall_mem_append.1 h
    rw [hoistedItems, e.hoisted_eq_self he, hoistedItems_eq_self items hitems]

theorem hoistedProperties_eq_self : ∀ properties : List Property,
    (∀ body ∈ propertyFunctionBodies properties, Sparse body) →
      hoistedProperties properties = properties
  | [], _ => rfl
  | .field _ value :: properties, h => by
    obtain ⟨hvalue, hproperties⟩ := List.forall_mem_append.1 h
    rw [hoistedProperties, value.hoisted_eq_self hvalue,
      hoistedProperties_eq_self properties hproperties]
  | .getter _ body :: properties, h | .setter _ _ body :: properties, h => by
    obtain ⟨hbody, hproperties⟩ := List.forall_mem_append.1 h
    rw [hoistedProperties, hoistedStmts_eq_self body hbody,
      hoistedProperties_eq_self properties hproperties]

theorem Binding.hoisted_eq_self : ∀ b : Binding, (∀ body ∈ b.functionBodies, Sparse body) →
    b.hoisted = b
  | .bare _, _ => rfl
  | .init name value, h => congrArg (Binding.init name) (value.hoisted_eq_self h)

theorem hoistedBindings_eq_self : ∀ bindings : List Binding,
    (∀ body ∈ bindingFunctionBodies bindings, Sparse body) → hoistedBindings bindings = bindings
  | [], _ => rfl
  | b :: bs, h => by
    obtain ⟨hb, hbs⟩ := List.forall_mem_append.1 h
    rw [hoistedBindings, b.hoisted_eq_self hb, hoistedBindings_eq_self bs hbs]

theorem LoopStart.hoisted_eq_self : ∀ start : LoopStart,
    (∀ body ∈ start.functionBodies, Sparse body) → start.hoisted = start
  | .nothing, _ => rfl
  | .vars bindings, h => congrArg LoopStart.vars (hoistedBindings_eq_self bindings h)
  | .expr e, h => congrArg LoopStart.expr (e.hoisted_eq_self h)

/-- A statement whose functions are in normal form is left as it is. -/
theorem Stmt.hoisted_eq_self : ∀ s : Stmt, (∀ body ∈ s.functionBodies, Sparse body) →
    s.hoisted = s
  | .func name params body, h => by
    obtain ⟨hbody, hinner⟩ := List.forall_mem_cons.1 h
    rw [Stmt.hoisted, hoistedStmts_eq_self body hinner, mergeDeclarations_of_sparse hbody]
  | .block body, h => congrArg Stmt.block (hoistedStmts_eq_self body h)
  | .vars bindings, h => congrArg Stmt.vars (hoistedBindings_eq_self bindings h)
  | .expr e, h | .throw e, h => by rw [Stmt.hoisted, e.hoisted_eq_self h]
  | .ret value, h => congrArg Stmt.ret (hoistedOptional_eq_self value h)
  | .label name body, h => congrArg (Stmt.label name) (body.hoisted_eq_self h)
  | .ifThen e body, h | .while e body, h | .withScope e body, h | .doWhile body e, h => by
    obtain ⟨he, hbody⟩ := List.forall_mem_append.1 h
    rw [Stmt.hoisted, e.hoisted_eq_self he, body.hoisted_eq_self hbody]
  | .ifElse test yes no, h => by
    obtain ⟨h, hno⟩ := List.forall_mem_append.1 h
    obtain ⟨htest, hyes⟩ := List.forall_mem_append.1 h
    rw [Stmt.hoisted, test.hoisted_eq_self htest, yes.hoisted_eq_self hyes, no.hoisted_eq_self hno]
  | .loop start test next body, h => by
    obtain ⟨h, hbody⟩ := List.forall_mem_append.1 h
    obtain ⟨h, hnext⟩ := List.forall_mem_append.1 h
    obtain ⟨hstart, htest⟩ := List.forall_mem_append.1 h
    rw [Stmt.hoisted, start.hoisted_eq_self hstart, hoistedOptional_eq_self test htest,
      hoistedOptional_eq_self next hnext, body.hoisted_eq_self hbody]
  | .loopIn item collection body, h | .loopVarIn item collection body, h => by
    obtain ⟨h, hbody⟩ := List.forall_mem_append.1 h
    obtain ⟨hitem, hcollection⟩ := List.forall_mem_append.1 h
    rw [Stmt.hoisted, item.hoisted_eq_self hitem, collection.hoisted_eq_self hcollection,
      body.hoisted_eq_self hbody]
  | .switch subject clauses, h => by
    obtain ⟨hsubject, hclauses⟩ := List.forall_mem_append.1 h
    rw [Stmt.hoisted, subject.hoisted_eq_self hsubject, hoistedClauses_eq_self clauses hclauses]
  | .tryCatch body _ last, h | .tryFinally body last, h => by
    obtain ⟨hbody, hlast⟩ := List.forall_mem_append.1 h
    rw [Stmt.hoisted, hoistedStmts_eq_self body hbody, hoistedStmts_eq_self last hlast]
  | .tryCatchFinally body _ handler finalizer, h => by
    obtain ⟨h, hfinalizer⟩ := List.forall_mem_append.1 h
    obtain ⟨hbody, hhandler⟩ := List.forall_mem_append.1 h
    rw [Stmt.hoisted, hoistedStmts_eq_self body hbody, hoistedStmts_eq_self handler hhandler,
      hoistedStmts_eq_self finalizer hfinalizer]
  | .empty, _ | .continue _, _ | .break _, _ | .debugger, _ => rfl

theorem hoistedStmts_eq_self : ∀ ss : List Stmt, (∀ body ∈ stmtFunctionBodies ss, Sparse body) →
    hoistedStmts ss = ss
  | [], _ => rfl
  | s :: ss, h => by
    obtain ⟨hs, hss⟩ := List.forall_mem_append.1 h
    rw [hoistedStmts, s.hoisted_eq_self hs, hoistedStmts_eq_self ss hss]

theorem hoistedClauses_eq_self : ∀ clauses : List Clause,
    (∀ body ∈ clauseFunctionBodies clauses, Sparse body) → hoistedClauses clauses = clauses
  | [], _ => rfl
  | .on label body :: clauses, h => by
    obtain ⟨h, hclauses⟩ := List.forall_mem_append.1 h
    obtain ⟨hlabel, hbody⟩ := List.forall_mem_append.1 h
    rw [hoistedClauses, label.hoisted_eq_self hlabel, hoistedStmts_eq_self body hbody,
      hoistedClauses_eq_self clauses hclauses]
  | .otherwise body :: clauses, h => by
    obtain ⟨hbody, hclauses⟩ := List.forall_mem_append.1 h
    rw [hoistedClauses, hoistedStmts_eq_self body hbody, hoistedClauses_eq_self clauses hclauses]

end

/-- A program whose scopes are all in normal form is left as it is. -/
theorem hoist_eq_self {program : Program} (h : ∀ body ∈ scopes program, Sparse body) :
    hoist program = program := by
  obtain ⟨hprogram, hfunctions⟩ := List.forall_mem_cons.1 h
  rw [hoist, hoistedStmts_eq_self program hfunctions, mergeDeclarations_of_sparse hprogram]

/-- After compression every scope of a program is in normal form. -/
theorem sparse_scopes_hoist (program : Program) : ∀ body ∈ scopes (hoist program), Sparse body := by
  rw [scopes_hoist]
  intro body' hbody'
  obtain ⟨body, -, rfl⟩ := List.mem_map.1 hbody'
  exact (normalized_hoist body).sparse

/-- Compression brings each scope of a program to normal form, the scopes matched in order, and a
second step changes nothing. -/
theorem compress_normalForm (options : CompressionOptions) (program : Program) :
    let compress := fun p => ({ options with hoistVars := true }.compress p).1
    List.Forall₂ Normalized (scopes program) (scopes (compress program)) ∧
      compress (compress program) = compress program := by
  show List.Forall₂ Normalized (scopes program) (scopes (hoist program)) ∧
    hoist (hoist program) = hoist program
  constructor
  · rw [scopes_hoist, List.forall₂_map_right_iff]
    exact List.forall₂_same.2 fun body _ => normalized_hoist body
  · exact hoist_eq_self (sparse_scopes_hoist program)

end Espalier.Script
