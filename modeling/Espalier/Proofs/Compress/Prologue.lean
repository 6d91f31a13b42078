import Espalier.Compile
import Espalier.Proofs.Compress.Merging
import Espalier.Proofs.Script.Scopes

/-!
# Directives

A scope may begin with directives, statements that are a string each, such as one that makes the
scope strict. Compression keeps the functions of a program and their order, and works on each of
them alone: `scopes_hoist`. The merged declaration comes before the directives, which are then no
longer at the beginning, so the directives of a scope are kept if nothing is merged there and are
lost otherwise: `prologues_hoist` and `prologues_compress_iff`.
-/

namespace Espalier.Script

/-- The directives that a scope begins with, as they are spelled. -/
def directives : List Stmt → List String
  | .expr (.string text) :: ss => text :: directives ss
  | _ => []

/-- The scopes of a program: the program, and then its functions in order. -/
def scopes (program : Program) : List (List Stmt) :=
  program :: stmtFunctionBodies program

/-- The directives of the scopes of a program. -/
def prologues (program : Program) : List (List String) :=
  (scopes program).map directives

/-! ## Merging in one scope -/

theorem functionBodies_foldl_comma (rest : List Expr) (first : Expr) :
    (rest.foldl .comma first).functionBodies = exprFunctionBodies (first :: rest) := by
  induction rest generalizing first with
  | nil => rw [List.foldl_nil, exprFunctionBodies, exprFunctionBodies, List.append_nil]
  | cons e rest ih =>
    rw [List.foldl_cons, ih, exprFunctionBodies, exprFunctionBodies, exprFunctionBodies,
      Expr.functionBodies, List.append_assoc]

theorem exprFunctionBodies_assignments (bindings : List Binding) :
    exprFunctionBodies (assignments bindings) = bindingFunctionBodies bindings := by
  induction bindings with
  | nil => rfl
  | cons b bs ih =>
    cases b with
    | bare name => exact ih
    | init name value => exact congrArg (value.functionBodies ++ ·) ih

theorem functionBodies_assigning (bindings : List Binding) :
    ((assigning? bindings).getD (.block [])).functionBodies = bindingFunctionBodies bindings := by
  rw [← exprFunctionBodies_assignments, assigning?]
  cases assignments bindings with
  | nil => rfl
  | cons first rest => exact functionBodies_foldl_comma rest first

theorem stmtFunctionBodies_toList (s : Option Stmt) :
    stmtFunctionBodies s.toList = (s.getD (.block [])).functionBodies := by
  cases s with
  | none => rfl
  | some s => exact List.append_nil s.functionBodies

mutual

/-- A statement has the same functions with assignments in place of declarations. -/
theorem Stmt.functionBodies_undeclared : ∀ s : Stmt,
    (s.undeclared.getD (.block [])).functionBodies = s.functionBodies
  | .vars bindings => functionBodies_assigning bindings
  | .block body => stmtFunctionBodies_undeclared body
  | .ifElse _ yes no => by
    simp only [Stmt.undeclared, Option.getD_some, Stmt.functionBodies,
      yes.functionBodies_undeclared, no.functionBodies_undeclared]
  | .ifThen _ body | .loop _ _ _ body | .loopIn _ _ body | .loopVarIn _ _ body | .while _ body
  | .doWhile body _ | .withScope _ body | .label _ body => by
    simp only [Stmt.undeclared, Option.getD_some, Stmt.functionBodies,
      body.functionBodies_undeclared]
  | .switch _ clauses => by
    simp only [Stmt.undeclared, Option.getD_some, Stmt.functionBodies,
      clauseFunctionBodies_undeclared clauses]
  | .tryCatch body _ last | .tryFinally body last => by
    simp only [Stmt.undeclared, Option.getD_some, Stmt.functionBodies,
      stmtFunctionBodies_undeclared body, stmtFunctionBodies_undeclared last]
  | .tryCatchFinally body _ handler finalizer => by
    simp only [Stmt.undeclared, Option.getD_some, Stmt.functionBodies,
      stmtFunctionBodies_undeclared body, stmtFunctionBodies_undeclared handler,
      stmtFunctionBodies_undeclared finalizer]
  | .empty | .expr _ | .continue _ | .break _ | .ret _ | .throw _ | .debugger | .func _ _ _ => rfl

theorem stmtFunctionBodies_undeclared : ∀ ss : List Stmt,
    stmtFunctionBodies (undeclaredAll ss) = stmtFunctionBodies ss
  | [] => rfl
  | s :: ss => by
    rw [undeclaredAll, stmtFunctionBodies_append, stmtFunctionBodies_toList,
      s.functionBodies_undeclared, stmtFunctionBodies_undeclared ss, stmtFunctionBodies]

theorem clauseFunctionBodies_undeclared : ∀ clauses : List Clause,
    clauseFunctionBodies (undeclaredClauses clauses) = clauseFunctionBodies clauses
  | [] => rfl
  | .on _ body :: clauses | .otherwise body :: clauses => by
    rw [undeclaredClauses, clauseFunctionBodies, clauseFunctionBodies,
      stmtFunctionBodies_undeclared body, clauseFunctionBodies_undeclared clauses]

end

theorem stmtFunctionBodies_mergeDeclarations (body : List Stmt) :
    stmtFunctionBodies (mergeDeclarations body) = stmtFunctionBodies body := by
  have hbare : ∀ names : List String, bindingFunctionBodies (names.map .bare) = [] := by
    intro names
    induction names with
    | nil => rfl
    | cons name names ih => exact ih
  obtain h | h := mergeDeclarations_cases body
  · rw [h]
  · rw [h, stmtFunctionBodies, Stmt.functionBodies, hbare, List.nil_append,
      stmtFunctionBodies_undeclared]

/-! ## Every scope -/

mutual

/-- The functions of an expression with merged declarations are those of the expression, each with
merged declarations. -/
theorem Expr.functionBodies_hoisted : ∀ e : Expr,
    e.hoisted.functionBodies = e.functionBodies.map hoist
  | .func _ _ body => by
    rw [Expr.hoisted, Expr.functionBodies, Expr.functionBodies, List.map_cons,
      stmtFunctionBodies_mergeDeclarations, stmtFunctionBodies_hoisted body, hoist]
  | .array items => itemFunctionBodies_hoisted items
  | .object properties => propertyFunctionBodies_hoisted properties
  | .group e | .dot e _ | .newBare e | .unary _ e | .step e _ => e.functionBodies_hoisted
  | .index left right | .binary _ left right | .assign _ left right | .comma left right => by
    simp only [Expr.hoisted, Expr.functionBodies, List.map_append, left.functionBodies_hoisted,
      right.functionBodies_hoisted]
  | .call callee args | .new callee args => by
    simp only [Expr.hoisted, Expr.functionBodies, List.map_append, callee.functionBodies_hoisted,
      exprFunctionBodies_hoisted args]
  | .cond test yes no => by
    simp only [Expr.hoisted, Expr.functionBodies, List.map_append, test.functionBodies_hoisted,
      yes.functionBodies_hoisted, no.functionBodies_hoisted]
  | .name _ | .this | .null | .bool _ | .number _ | .string _ | .regex _ => rfl

theorem exprFunctionBodies_hoisted : ∀ es : List Expr,
    exprFunctionBodies (hoistedExprs es) = (exprFunctionBodies es).map hoist
  | [] => rfl
  | e :: es => by
    rw [hoistedExprs, exprFunctionBodies, exprFunctionBodies, List.map_append,
      e.functionBodies_hoisted, exprFunctionBodies_hoisted es]

theorem optionalFunctionBodies_hoisted : ∀ e : Option Expr,
    optionalFunctionBodies (hoistedOptional e) = (optionalFunctionBodies e).map hoist
  | none => rfl
  | some e => e.functionBodies_hoisted

theorem itemFunctionBodies_hoisted : ∀ items : List Item,
    itemFunctionBodies (hoistedItems items) = (itemFunctionBodies items).map hoist
  | [] => rfl
  | .elision _ :: items => itemFunctionBodies_hoisted items
  | .value e :: items => by
    rw [hoistedItems, itemFunctionBodies, itemFunctionBodies, List.map_append,
      e.functionBodies_hoisted, itemFunctionBodies_hoisted items]

theorem propertyFunctionBodies_hoisted : ∀ properties : List Property,
    propertyFunctionBodies (hoistedProperties properties)
      = (propertyFunctionBodies properties).map hoist
  | [] => rfl
  | .field _ value :: properties => by
    rw [hoistedProperties, propertyFunctionBodies, propertyFunctionBodies, List.map_append,
      value.functionBodies_hoisted, propertyFunctionBodies_hoisted properties]
  | .getter _ body :: properties | .setter _ _ body :: properties => by
    rw [hoistedProperties, propertyFunctionBodies, propertyFunctionBodies, List.map_append,
      stmtFunctionBodies_hoisted body, propertyFunctionBodies_hoisted properties]

theorem Binding.functionBodies_hoisted : ∀ b : Binding,
    b.hoisted.functionBodies = b.functionBodies.map hoist
  | .bare _ => rfl
  | .init _ value => value.functionBodies_hoisted

theorem bindingFunctionBodies_hoisted : ∀ bindings : List Binding,
    bindingFunctionBodies (hoistedBindings bindings) = (bindingFunctionBodies bindings).map hoist
  | [] => rfl
  | b :: bs => by
    rw [hoistedBindings, bindingFunctionBodies, bindingFunctionBodies, List.map_append,
      b.functionBodies_hoisted, bindingFunctionBodies_hoisted bs]

theorem LoopStart.functionBodies_hoisted : ∀ start : LoopStart,
    start.hoisted.functionBodies = start.functionBodies.map hoist
  | .nothing => rfl
  | .vars bindings => bindingFunctionBodies_hoisted bindings
  | .expr e => e.functionBodies_hoisted

/-- The functions of a statement with merged declarations are those of the statement, each with
merged declarations. -/
theorem Stmt.functionBodies_hoisted : ∀ s : Stmt,
    s.hoisted.functionBodies = s.functionBodies.map hoist
  | .func _ _ body => by
    rw [Stmt.hoisted, Stmt.functionBodies, Stmt.functionBodies, List.map_cons,
      stmtFunctionBodies_mergeDeclarations, stmtFunctionBodies_hoisted body, hoist]
  | .block body => stmtFunctionBodies_hoisted body
  | .vars bindings => bindingFunctionBodies_hoisted bindings
  | .expr e | .throw e => e.functionBodies_hoisted
  | .ret value => optionalFunctionBodies_hoisted value
  | .label _ body => body.functionBodies_hoisted
  | .ifThen e body | .while e body | .doWhile body e | .withScope e body => by
    simp only [Stmt.hoisted, Stmt.functionBodies, List.map_append, e.functionBodies_hoisted,
      body.functionBodies_hoisted]
  | .ifElse test yes no => by
    simp only [Stmt.hoisted, Stmt.functionBodies, List.map_append, test.functionBodies_hoisted,
      yes.functionBodies_hoisted, no.functionBodies_hoisted]
  | .loop start test next body => by
    simp only [Stmt.hoisted, Stmt.functionBodies, List.map_append, start.functionBodies_hoisted,
      optionalFunctionBodies_hoisted test, optionalFunctionBodies_hoisted next,
      body.functionBodies_hoisted]
  | .loopIn item collection body | .loopVarIn item collection body => by
    simp only [Stmt.hoisted, Stmt.functionBodies, List.map_append, item.functionBodies_hoisted,
      collection.functionBodies_hoisted, body.functionBodies_hoisted]
  | .switch subject clauses => by
    simp only [Stmt.hoisted, Stmt.functionBodies, List.map_append, subject.functionBodies_hoisted,
      clauseFunctionBodies_hoisted clauses]
  | .tryCatch body _ last | .tryFinally body last => by
    simp only [Stmt.hoisted, Stmt.functionBodies, List.map_append, stmtFunctionBodies_hoisted body,
      stmtFunctionBodies_hoisted last]
  | .tryCatchFinally body _ handler finalizer => by
    simp only [Stmt.hoisted, Stmt.functionBodies, List.map_append, stmtFunctionBodies_hoisted body,
      stmtFunctionBodies_hoisted handler, stmtFunctionBodies_hoisted finalizer]
  | .empty | .continue _ | .break _ | .debugger => rfl

theorem stmtFunctionBodies_hoisted : ∀ ss : List Stmt,
    stmtFunctionBodies (hoistedStmts ss) = (stmtFunctionBodies ss).map hoist
  | [] => rfl
  | s :: ss => by
    rw [hoistedStmts, stmtFunctionBodies, stmtFunctionBodies, List.map_append,
      s.functionBodies_hoisted, stmtFunctionBodies_hoisted ss]

theorem clauseFunctionBodies_hoisted : ∀ clauses : List Clause,
    clauseFunctionBodies (hoistedClauses clauses) = (clauseFunctionBodies clauses).map hoist
  | [] => rfl
  | .on label body :: clauses => by
    rw [hoistedClauses, clauseFunctionBodies, clauseFunctionBodies, List.map_append,
      List.map_append, label.functionBodies_hoisted, stmtFunctionBodies_hoisted body,
      clauseFunctionBodies_hoisted clauses]
  | .otherwise body :: clauses => by
    rw [hoistedClauses, clauseFunctionBodies, clauseFunctionBodies, List.map_append,
      stmtFunctionBodies_hoisted body, clauseFunctionBodies_hoisted clauses]

end

/-- Compression works on each scope of a program alone: it adds, drops and moves none. -/
theorem scopes_hoist (program : Program) : scopes (hoist program) = (scopes program).map hoist := by
  rw [scopes, scopes, List.map_cons, hoist, stmtFunctionBodies_mergeDeclarations,
    stmtFunctionBodies_hoisted]

/-! ## The beginning of a scope -/

mutual

theorem Stmt.varStatements_hoisted : ∀ s : Stmt,
    s.hoisted.varStatements = s.varStatements.map hoistedBindings
  | .vars _ => rfl
  | .block body => varStatementsAll_hoisted body
  | .ifElse _ yes no => by
    simp only [Stmt.hoisted, Stmt.varStatements, List.map_append, yes.varStatements_hoisted,
      no.varStatements_hoisted]
  | .ifThen _ body | .loop _ _ _ body | .loopIn _ _ body | .loopVarIn _ _ body | .while _ body
  | .doWhile body _ | .withScope _ body | .label _ body => body.varStatements_hoisted
  | .switch _ clauses => varStatementsClauses_hoisted clauses
  | .tryCatch body _ last | .tryFinally body last => by
    simp only [Stmt.hoisted, Stmt.varStatements, List.map_append, varStatementsAll_hoisted body,
      varStatementsAll_hoisted last]
  | .tryCatchFinally body _ handler finalizer => by
    simp only [Stmt.hoisted, Stmt.varStatements, List.map_append, varStatementsAll_hoisted body,
      varStatementsAll_hoisted handler, varStatementsAll_hoisted finalizer]
  | .empty | .expr _ | .continue _ | .break _ | .ret _ | .throw _ | .debugger | .func _ _ _ => rfl

/-- Merging inside the functions of a scope leaves the scope its own declarations. -/
theorem varStatementsAll_hoisted : ∀ ss : List Stmt,
    varStatementsAll (hoistedStmts ss) = (varStatementsAll ss).map hoistedBindings
  | [] => rfl
  | s :: ss => by
    rw [hoistedStmts, varStatementsAll, varStatementsAll, List.map_append,
      s.varStatements_hoisted, varStatementsAll_hoisted ss]

theorem varStatementsClauses_hoisted : ∀ clauses : List Clause,
    varStatementsClauses (hoistedClauses clauses)
      = (varStatementsClauses clauses).map hoistedBindings
  | [] => rfl
  | .on _ body :: clauses | .otherwise body :: clauses => by
    rw [hoistedClauses, varStatementsClauses, varStatementsClauses, List.map_append,
      varStatementsAll_hoisted body, varStatementsClauses_hoisted clauses]

end

theorem directives_hoisted (ss : List Stmt) : directives (hoistedStmts ss) = directives ss := by
  induction ss with
  | nil => rfl
  | cons s ss ih =>
    cases s with
    | expr e =>
      cases e with
      | string text => exact congrArg (text :: ·) ih
      | _ => rfl
    | _ => rfl

/-- A scope keeps its directives if it has no declarations to merge, else it begins with the merged
declaration. -/
theorem directives_hoist (body : List Stmt) : directives (hoist body)
    = if (varStatementsAll body).length < 2 then directives body else [] := by
  unfold hoist mergeDeclarations
  simp only [varStatementsAll_hoisted, List.length_map]
  split
  · exact directives_hoisted body
  · rfl

/-- The directives of every scope after compression. -/
theorem prologues_hoist (program : Program) : prologues (hoist program)
    = (scopes program).map fun body =>
        if (varStatementsAll body).length < 2 then directives body else [] := by
  rw [prologues, scopes_hoist, List.map_map]
  exact List.map_congr_left fun body _ => directives_hoist body

/-- Compression keeps the directives of every scope of a program, the functions matched in order,
exactly when no scope has both directives and declarations to merge. -/
theorem prologues_compress_iff (options : CompressionOptions) (program : Program) :
    prologues ({ options with hoistVars := true }.compress program).1 = prologues program ↔
      ∀ body ∈ scopes program, directives body = [] ∨ (varStatementsAll body).length < 2 := by
  show prologues (hoist program) = prologues program ↔ _
  rw [prologues_hoist, prologues, List.map_inj_left]
  refine forall₂_congr fun body _ => ?_
  by_cases hfew : (varStatementsAll body).length < 2
  · rw [if_pos hfew]
    exact iff_of_true rfl (.inr hfew)
  · rw [if_neg hfew]
    exact ⟨fun h => .inl h.symm, fun h => (h.resolve_right hfew).symm⟩

/-- A strict function with two declarations is no longer strict after compression. -/
theorem prologues_compress_strict : ∃ program : Program,
    parse "function f()\x7b\x22use strict\x22;var a=1;var b=2;\x7d" = some program ∧
      prologues program = [[], ["\x22use strict\x22"]] ∧
      prologues (({} : CompressionOptions).compress program).1 = [[], []] := by
  have htokens : tokenize "function f()\x7b\x22use strict\x22;var a=1;var b=2;\x7d"
      = [.keyword .function, .name "f", .mark .lparen, .mark .rparen, .mark .lbrace,
        .string "\x22use strict\x22", .mark .semi, .keyword .var, .name "a", .mark (.assign .plain),
        .number "1", .mark .semi, .keyword .var, .name "b", .mark (.assign .plain), .number "2",
        .mark .semi, .mark .rbrace, .eof].map (⟨·, false, none⟩) := by
    decide +kernel
  refine ⟨[.func "f" [] [.expr (.string "\x22use strict\x22"), .vars [.init "a" (.number "1")],
    .vars [.init "b" (.number "2")]]], ?_, rfl, rfl⟩
  rw [parse, htokens]
  rfl

end Espalier.Script
