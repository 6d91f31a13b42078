import Espalier.Proofs.Render.Conservation

/-!
# Code without reserved names

Resolving enters every compound statement and every function that is handed to a call, and rebuilds
what it enters. Where none of the names occurs that it looks for, it puts everything back as it was:
each walker returns its input and names no array. Main statement: `resolve_untouched`, by which the
render function of such a program holds the program's own statements.
-/

namespace Espalier.Render

open Espalier.Script

/-- Resolving looks for none of the names. -/
def Ordinary (names : List String) : Prop :=
  ∀ name ∈ names, name ∉ Marker.iterate :: Marker.resolved

theorem ordinary_append {a b : List String} : Ordinary (a ++ b) ↔ Ordinary a ∧ Ordinary b :=
  List.forall_mem_append

theorem ordinary_cons {name : String} {names : List String} :
    Ordinary (name :: names) ↔ name ∉ Marker.iterate :: Marker.resolved ∧ Ordinary names :=
  List.forall_mem_cons

/-- An ordinary call is no element. -/
theorem elementCall?_of_ordinary {s : Stmt} (h : Ordinary s.names) : elementCall? s = none := by
  cases hcall : elementCall? s with
  | none => rfl
  | some args =>
    rw [elementCall?_eq_some hcall] at h
    exact absurd (by decide) (h Marker.element (List.mem_cons_self ..))

section
variable (settings : Settings)

mutual

/-- Statements in which no name is looked for stay as they are. -/
theorem resolveAll_of_ordinary (target : String) : ∀ ss : List Stmt, Ordinary (stmtNames ss) →
    resolveAll settings target ss = pure ss
  | [], _ => resolveAll_nil settings target
  | s :: rest, h => by
    obtain ⟨hs, hrest⟩ := ordinary_append.1 h
    rw [resolveAll_cons settings target s rest (.inl (elementCall?_of_ordinary hs)),
      resolveStmt_of_ordinary target s hs, resolveAll_of_ordinary target rest hrest, pure_bind,
      pure_bind]
termination_by t => sizeOf t
decreasing_by all_goals simp +arith

theorem resolveStmt_of_ordinary (target : String) : ∀ s : Stmt, Ordinary s.names →
    resolveStmt settings target s = pure s
  | .block body, h => by
    rw [resolveStmt, resolveAll_of_ordinary target body h, pure_bind]
  | .ifElse test yes no, h => by
    obtain ⟨hboth, hno⟩ := ordinary_append.1 h
    rw [resolveStmt, resolveStmt_of_ordinary target yes (ordinary_append.1 hboth).2,
      resolveStmt_of_ordinary target no hno, pure_bind, pure_bind]
  | .ifThen _ body, h | .loop _ _ _ body, h | .loopIn _ _ body, h | .loopVarIn _ _ body, h
  | .while _ body, h | .doWhile body _, h | .withScope _ body, h => by
    rw [resolveStmt, resolveStmt_of_ordinary target body (ordinary_append.1 h).2, pure_bind]
  | .label _ body, h => by
    rw [resolveStmt, resolveStmt_of_ordinary target body (ordinary_cons.1 h).2, pure_bind]
  | .switch _ clauses, h => by
    rw [resolveStmt, resolveClauses_of_ordinary target clauses (ordinary_append.1 h).2, pure_bind]
  | .tryCatch body _ handler, h => by
    obtain ⟨hbody, hcatch⟩ := ordinary_append.1 h
    rw [resolveStmt, resolveAll_of_ordinary target body hbody,
      resolveAll_of_ordinary target handler (ordinary_cons.1 hcatch).2, pure_bind, pure_bind]
  | .tryFinally body finalizer, h => by
    obtain ⟨hbody, hfinalizer⟩ := ordinary_append.1 h
    rw [resolveStmt, resolveAll_of_ordinary target body hbody,
      resolveAll_of_ordinary target finalizer hfinalizer, pure_bind, pure_bind]
  | .tryCatchFinally body _ handler finalizer, h => by
    obtain ⟨hboth, hfinalizer⟩ := ordinary_append.1 h
    obtain ⟨hbody, hcatch⟩ := ordinary_append.1 hboth
    rw [resolveStmt, resolveAll_of_ordinary target body hbody,
      resolveAll_of_ordinary target handler (ordinary_cons.1 hcatch).2,
      resolveAll_of_ordinary target finalizer hfinalizer, pure_bind, pure_bind, pure_bind]
  | .expr e, h => by
    by_cases hcall : ∃ id args, e = .call (.name id) args
    · obtain ⟨id, args, rfl⟩ := hcall
      obtain ⟨hid, hargs⟩ := ordinary_cons.1 h
      obtain ⟨hiterate, hresolved⟩ := not_or.1 (mt List.mem_cons.2 hid)
      rw [resolveStmt_call settings target args hresolved hiterate,
        resolveCallbacks_of_ordinary target args hargs, pure_bind]
    · simp only [not_exists] at hcall
      rw [resolveStmt_chain settings target hcall, resolveChain_of_ordinary target e h, pure_bind]
  | .vars _, _ | .empty, _ | .continue _, _ | .break _, _ | .ret _, _ | .throw _, _
  | .debugger, _ | .func _ _ _, _ => by
    simp only [resolveStmt]
termination_by t => sizeOf t
decreasing_by all_goals (subst_vars; simp +arith)

theorem resolveChain_of_ordinary (target : String) : ∀ e : Expr, Ordinary e.names →
    resolveChain settings target e = pure e
  | e, h => by
    by_cases hcall : ∃ callee args, e = .call callee args
    · obtain ⟨callee, args, rfl⟩ := hcall
      obtain ⟨hcallee, hargs⟩ := ordinary_append.1 h
      by_cases hdot : ∃ owner field, callee = .dot owner field
      · obtain ⟨owner, field, rfl⟩ := hdot
        rw [resolveChain, resolveCallbacks_of_ordinary target args hargs,
          resolveChain_of_ordinary target owner (ordinary_append.1 hcallee).1, pure_bind, pure_bind]
      · rw [resolveChain, resolveCallbacks_of_ordinary target args hargs, pure_bind]
        exact fun owner field heq => hdot ⟨owner, field, heq⟩
    · simp only [not_exists] at hcall
      exact resolveChain_other settings target hcall
termination_by t => sizeOf t
decreasing_by all_goals (subst_vars; simp +arith)

theorem resolveCallbacks_of_ordinary (target : String) : ∀ args : List Expr,
    Ordinary (exprNames args) → resolveCallbacks settings target args = pure args
  | [], _ => by rw [resolveCallbacks]
  | arg :: rest, h => by
    obtain ⟨harg, hrest⟩ := ordinary_append.1 h
    have ih := resolveCallbacks_of_ordinary target rest hrest
    by_cases hfunction : ∃ name params body, arg = .func name params body
    · obtain ⟨name, params, body, rfl⟩ := hfunction
      rw [resolveCallbacks, resolveAll_of_ordinary target body (ordinary_append.1 harg).2, ih,
        pure_bind, pure_bind]
      exact pure_bind _ _
    · simp only [not_exists] at hfunction
      rw [resolveCallbacks_cons settings target hfunction, ih, pure_bind]
termination_by t => sizeOf t
decreasing_by all_goals (subst_vars; simp +arith)

theorem resolveClauses_of_ordinary (target : String) : ∀ clauses : List Clause,
    Ordinary (clauseNames clauses) → resolveClauses settings target clauses = pure clauses
  | [], _ => by rw [resolveClauses]
  | .on _ body :: rest, h => by
    obtain ⟨hfirst, hrest⟩ := ordinary_append.1 h
    rw [resolveClauses, resolveAll_of_ordinary target body (ordinary_append.1 hfirst).2,
      resolveClauses_of_ordinary target rest hrest, pure_bind, pure_bind]
  | .otherwise body :: rest, h => by
    obtain ⟨hbody, hrest⟩ := ordinary_append.1 h
    rw [resolveClauses, resolveAll_of_ordinary target body hbody,
      resolveClauses_of_ordinary target rest hrest, pure_bind, pure_bind]
termination_by t => sizeOf t
decreasing_by all_goals simp +arith

end

end

/-- A program in which no name is looked for has a render function, and its statements stand in it
as they are, between the declaration of the array and the result. -/
theorem resolve_untouched {settings : Settings} (hname : Unreserved settings.functionName)
    {program : Program}
    (h : ∀ name ∈ stmtNames program, name ∉ Marker.iterate :: Marker.resolved) :
    resolve settings program = .ok [.func settings.functionName ["block"]
      (declare "$children0" (.array []) :: program
        ++ [.ret (some (soleOrAll "$children0"))])] := by
  refine resolve_eq_ok_iff.2 ⟨program, 1, ?_, rfl, ?_⟩
  · rw [resolveAll_of_ordinary settings "$children0" program h]
    rfl
  · have hroot : Unreserved "$children0" := by decide
    rw [← Settings.renderFunction, names_renderFunction]
    simp only [List.forall_mem_append, List.forall_mem_cons]
    exact ⟨hname, by decide, hroot,
      fun name hmem hreserved => h name hmem (List.mem_cons_of_mem _ hreserved), hroot, by decide,
      hroot, hroot, List.forall_mem_nil _⟩

/-- A loop over a callback, a switch and a protected block of an author. -/
theorem resolve_untouched_callback :
    let program : Program :=
      [.while (.name "a") (.block [.expr (.call (.dot (.name "b") "each")
        [.func none ["c"] [.switch (.name "c") [.on (.number "1")
          [.tryCatch [.expr (.call (.name "d") [])] "e" [.throw (.name "e")]], .otherwise []]]])])]
    (∀ name ∈ stmtNames program, name ∉ Marker.iterate :: Marker.resolved) ∧
      resolve {} program = .ok [.func "render" ["block"]
        (declare "$children0" (.array []) :: program
          ++ [.ret (some (soleOrAll "$children0"))])] := by
  intro program
  have h : ∀ name ∈ stmtNames program, name ∉ Marker.iterate :: Marker.resolved := by decide
  exact ⟨h, resolve_untouched (by decide) h⟩

end Espalier.Render
