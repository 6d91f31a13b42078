import Espalier.Compress.Hoist
import Espalier.Proofs.Compress.Behaviour

/-!
# Merging the declarations of one scope

A declaration with initial values and the assignments in its place run alike, and what declares only
does not run at all. So a body runs as before when its declarations are merged, the same is written
in it, and it has the same variables: `runAll_mergeDeclarations`, `writtenAll_mergeDeclarations` and
`mem_varNamesAll_mergeDeclarations`.
-/

namespace Espalier.Script

/-! ## Laws of runs -/

namespace Run

theorem bind_stop (r : Run) : r.bind stop = r := by
  funext answers
  simp only [bind, stop, List.append_nil]

theorem bind_assoc (r : Run) (next next' : Completion → Run) :
    (r.bind next).bind next' = r.bind fun c => (next c).bind next' := by
  funext answers
  simp only [bind, List.append_assoc]

theorem stop_andThen (r : Run) : (stop .normal).andThen r = r := rfl

theorem andThen_stop (r : Run) : r.andThen (stop .normal) = r := by
  have hbind : r.andThen (stop .normal) = r.bind stop := by
    unfold andThen
    congr 1
    funext c
    cases c <;> rfl
  rw [hbind, bind_stop]

theorem andThen_assoc (r r' r'' : Run) :
    (r.andThen r').andThen r'' = r.andThen (r'.andThen r'') := by
  rw [andThen, andThen, andThen, bind_assoc]
  congr 1
  funext c
  cases c <;> rfl

end Run

/-! ## One scope -/

theorem runAll_append (ss ss' : List Stmt) :
    runAll (ss ++ ss') = (runAll ss).andThen (runAll ss') := by
  induction ss with
  | nil => rw [List.nil_append, runAll, Run.stop_andThen]
  | cons s ss ih => rw [List.cons_append, runAll, runAll, ih, Run.andThen_assoc]

theorem writtenAll_append (ss ss' : List Stmt) :
    writtenAll (ss ++ ss') = writtenAll ss ++ writtenAll ss' := by
  induction ss with
  | nil => rfl
  | cons s ss ih => rw [List.cons_append, writtenAll, writtenAll, ih, List.append_assoc]

/-- A sequence of expressions with commas runs like a sequence of statements. -/
theorem run_foldl_comma (rest : List Expr) (first : Expr) :
    (rest.foldl .comma first).run = runAll (.expr first :: rest.map .expr) := by
  induction rest generalizing first with
  | nil => rw [List.map_nil, runAll, runAll, Run.andThen_stop]; rfl
  | cons e rest ih =>
    rw [List.foldl_cons, ih, List.map_cons, runAll, runAll, runAll, ← Run.andThen_assoc]
    rfl

theorem written_foldl_comma (rest : List Expr) (first : Expr) :
    (rest.foldl .comma first).written = writtenAll (.expr first :: rest.map .expr) := by
  induction rest generalizing first with
  | nil => rw [List.map_nil, writtenAll, writtenAll, List.append_nil]; rfl
  | cons e rest ih =>
    rw [List.foldl_cons, ih, List.map_cons, writtenAll, writtenAll, writtenAll, ← List.append_assoc]
    rfl

theorem runBindings_eq (bindings : List Binding) :
    runBindings bindings = runAll ((assignments bindings).map .expr) := by
  induction bindings with
  | nil => rfl
  | cons b bs ih =>
    cases b with
    | bare name => exact ih
    | init name value => exact congrArg _ ih

theorem writtenBindings_eq (bindings : List Binding) :
    writtenBindings bindings = writtenAll ((assignments bindings).map .expr) := by
  induction bindings with
  | nil => rfl
  | cons b bs ih =>
    cases b with
    | bare name => exact ih
    | init name value => exact congrArg _ ih

theorem run_assigning (bindings : List Binding) :
    ((assigning? bindings).getD (.block [])).run = runBindings bindings := by
  rw [runBindings_eq, assigning?]
  cases assignments bindings with
  | nil => rfl
  | cons first rest => exact run_foldl_comma rest first

theorem written_assigning (bindings : List Binding) :
    ((assigning? bindings).getD (.block [])).written = writtenBindings bindings := by
  rw [writtenBindings_eq, assigning?]
  cases assignments bindings with
  | nil => rfl
  | cons first rest => exact written_foldl_comma rest first

theorem runAll_toList (s : Option Stmt) : runAll s.toList = (s.getD (.block [])).run := by
  cases s with
  | none => rfl
  | some s => exact Run.andThen_stop s.run

theorem writtenAll_toList (s : Option Stmt) :
    writtenAll s.toList = (s.getD (.block [])).written := by
  cases s with
  | none => rfl
  | some s => exact List.append_nil s.written

theorem selectFrom_undeclared (found : Nat → Run) (missed : Run) (clauses : List Clause) :
    ∀ position, selectFrom position found missed (undeclaredClauses clauses)
      = selectFrom position found missed clauses := by
  induction clauses with
  | nil => intro position; rfl
  | cons clause clauses ih =>
    intro position
    cases clause with
    | on label body => rw [undeclaredClauses, selectFrom, selectFrom, ih]
    | otherwise body => rw [undeclaredClauses, selectFrom, selectFrom, ih]

theorem findIdx?_undeclared (clauses : List Clause) :
    (undeclaredClauses clauses).findIdx? Clause.isOtherwise
      = clauses.findIdx? Clause.isOtherwise := by
  induction clauses with
  | nil => rfl
  | cons clause clauses ih =>
    cases clause <;>
      rw [undeclaredClauses, List.findIdx?_cons, List.findIdx?_cons, ih] <;> rfl

theorem select_undeclared (clauses : List Clause) (found : Nat → Run) :
    select (undeclaredClauses clauses) found = select clauses found := by
  rw [select, select, selectFrom_undeclared, findIdx?_undeclared]

mutual

/-- A statement and the one in its place run alike; an empty block stands for none. -/
theorem Stmt.run_undeclared : ∀ s : Stmt, (s.undeclared.getD (.block [])).run = s.run
  | .vars bindings => run_assigning bindings
  | .block body => runAll_undeclared body
  | .ifThen _ yes => by
    simp only [Stmt.undeclared, Option.getD_some, Stmt.run, yes.run_undeclared]
  | .ifElse _ yes no => by
    simp only [Stmt.undeclared, Option.getD_some, Stmt.run, yes.run_undeclared, no.run_undeclared]
  | .loop _ _ _ body | .loopIn _ _ body | .loopVarIn _ _ body | .while _ body | .doWhile body _
  | .withScope _ body | .label _ body => by
    simp only [Stmt.undeclared, Option.getD_some, Stmt.run, body.run_undeclared]
  | .switch _ clauses => by
    simp only [Stmt.undeclared, Option.getD_some, Stmt.run, runFrom_undeclared clauses,
      select_undeclared]
  | .tryCatch body _ last | .tryFinally body last => by
    simp only [Stmt.undeclared, Option.getD_some, Stmt.run, runAll_undeclared body,
      runAll_undeclared last]
  | .tryCatchFinally body _ handler finalizer => by
    simp only [Stmt.undeclared, Option.getD_some, Stmt.run, runAll_undeclared body,
      runAll_undeclared handler, runAll_undeclared finalizer]
  | .empty | .expr _ | .continue _ | .break _ | .ret _ | .throw _ | .debugger | .func _ _ _ => rfl

theorem runAll_undeclared : ∀ ss : List Stmt, runAll (undeclaredAll ss) = runAll ss
  | [] => rfl
  | s :: ss => by
    rw [undeclaredAll, runAll_append, runAll_toList, s.run_undeclared, runAll_undeclared ss, runAll]

theorem runFrom_undeclared : ∀ (clauses : List Clause) (position : Nat),
    runFrom position (undeclaredClauses clauses) = runFrom position clauses
  | [], _ => rfl
  | .on _ body :: clauses, 0 | .otherwise body :: clauses, 0 => by
    rw [undeclaredClauses, runFrom, runFrom, runAll_undeclared body, runFrom_undeclared clauses]
  | .on _ _ :: clauses, _ + 1 | .otherwise _ :: clauses, _ + 1 => by
    rw [undeclaredClauses, runFrom, runFrom, runFrom_undeclared clauses]

end

mutual

/-- The same is written in a statement and in the one in its place. -/
theorem Stmt.written_undeclared : ∀ s : Stmt,
    (s.undeclared.getD (.block [])).written = s.written
  | .vars bindings => written_assigning bindings
  | .block body => writtenAll_undeclared body
  | .ifThen _ yes => by
    simp only [Stmt.undeclared, Option.getD_some, Stmt.written, yes.written_undeclared]
  | .ifElse _ yes no => by
    simp only [Stmt.undeclared, Option.getD_some, Stmt.written, yes.written_undeclared,
      no.written_undeclared]
  | .loop _ _ _ body | .loopIn _ _ body | .loopVarIn _ _ body | .while _ body | .doWhile body _
  | .withScope _ body | .label _ body => by
    simp only [Stmt.undeclared, Option.getD_some, Stmt.written, body.written_undeclared]
  | .switch _ clauses => by
    simp only [Stmt.undeclared, Option.getD_some, Stmt.written, writtenClauses_undeclared clauses]
  | .tryCatch body _ last | .tryFinally body last => by
    simp only [Stmt.undeclared, Option.getD_some, Stmt.written, writtenAll_undeclared body,
      writtenAll_undeclared last]
  | .tryCatchFinally body _ handler finalizer => by
    simp only [Stmt.undeclared, Option.getD_some, Stmt.written, writtenAll_undeclared body,
      writtenAll_undeclared handler, writtenAll_undeclared finalizer]
  | .empty | .expr _ | .continue _ | .break _ | .ret _ | .throw _ | .debugger | .func _ _ _ => rfl

theorem writtenAll_undeclared : ∀ ss : List Stmt, writtenAll (undeclaredAll ss) = writtenAll ss
  | [] => rfl
  | s :: ss => by
    rw [undeclaredAll, writtenAll_append, writtenAll_toList, s.written_undeclared,
      writtenAll_undeclared ss, writtenAll]

theorem writtenClauses_undeclared : ∀ clauses : List Clause,
    writtenClauses (undeclaredClauses clauses) = writtenClauses clauses
  | [] => rfl
  | .on _ body :: clauses | .otherwise body :: clauses => by
    rw [undeclaredClauses, writtenClauses, writtenClauses, writtenAll_undeclared body,
      writtenClauses_undeclared clauses]

end

/-- Variables that are declared only do not run. -/
theorem runBindings_bare (names : List String) : runBindings (names.map .bare) = .stop .normal := by
  induction names with
  | nil => rfl
  | cons name names ih => exact ih

theorem writtenBindings_bare (names : List String) : writtenBindings (names.map .bare) = [] := by
  induction names with
  | nil => rfl
  | cons name names ih => exact ih

/-- Merging leaves a body alone, or puts one declaration before it. -/
theorem mergeDeclarations_cases (body : List Stmt) : mergeDeclarations body = body ∨
    mergeDeclarations body
      = .vars ((declaredNames (varStatementsAll body)).map .bare) :: undeclaredAll body := by
  by_cases h : (varStatementsAll body).length < 2
  · exact .inl (if_pos h)
  · exact .inr (if_neg h)

theorem runAll_mergeDeclarations (body : List Stmt) :
    runAll (mergeDeclarations body) = runAll body := by
  obtain h | h := mergeDeclarations_cases body
  · rw [h]
  · rw [h, runAll, Stmt.run, runBindings_bare, Run.stop_andThen, runAll_undeclared]

theorem writtenAll_mergeDeclarations (body : List Stmt) :
    writtenAll (mergeDeclarations body) = writtenAll body := by
  obtain h | h := mergeDeclarations_cases body
  · rw [h]
  · rw [h, writtenAll, Stmt.written, writtenBindings_bare, List.nil_append, writtenAll_undeclared]

/-! ## The variables of one scope -/

theorem mem_firstOccurrences {name : String} {names : List String} :
    name ∈ firstOccurrences names ↔ name ∈ names := by
  have hfold : ∀ seen : List String, name ∈ names.foldl
      (fun seen name => if seen.contains name then seen else seen ++ [name]) seen ↔
        name ∈ seen ∨ name ∈ names := by
    induction names with
    | nil => simp
    | cons first names ih =>
      intro seen
      rw [List.foldl_cons, ih]
      split
      case isTrue hseen =>
        have hfirst : first ∈ seen := List.contains_iff_mem.1 hseen
        grind
      case isFalse => grind
  rw [firstOccurrences, hfold]
  simp

/-- The variables of declarations. -/
def boundNames (declarations : List (List Binding)) : List String :=
  declarations.flatMap fun bindings => bindings.map (·.name)

theorem mem_declaredNames {name : String} {declarations : List (List Binding)} :
    name ∈ declaredNames declarations ↔ name ∈ boundNames declarations :=
  mem_firstOccurrences

theorem boundNames_append (declarations declarations' : List (List Binding)) :
    boundNames (declarations ++ declarations')
      = boundNames declarations ++ boundNames declarations' :=
  List.flatMap_append

theorem varNamesAll_toList (s : Option Stmt) :
    varNamesAll s.toList = (s.getD (.block [])).varNames := by
  cases s with
  | none => rfl
  | some s => exact List.append_nil s.varNames

theorem varNames_assigning (bindings : List Binding) :
    ((assigning? bindings).getD (.block [])).varNames = [] := by
  unfold assigning?
  split <;> rfl

section
variable {name : String}

mutual

/-- The variables of a statement are those of its declarations, and those that are still declared
in the heads of loops when assignments have taken the declarations' places. -/
theorem Stmt.mem_varNames : ∀ s : Stmt, name ∈ s.varNames ↔
    name ∈ boundNames s.varStatements ∨ name ∈ (s.undeclared.getD (.block [])).varNames
  | .vars bindings => by
    rw [Stmt.undeclared, varNames_assigning, Stmt.varNames, Stmt.varStatements]
    simp [boundNames]
  | .block body => mem_varNamesAll body
  | .ifThen _ body | .loopIn _ _ body | .while _ body | .doWhile body _ | .withScope _ body
  | .label _ body => body.mem_varNames
  | .ifElse _ yes no => by
    have hyes := yes.mem_varNames
    have hno := no.mem_varNames
    simp only [Stmt.undeclared, Option.getD_some, Stmt.varNames, Stmt.varStatements,
      boundNames_append, List.mem_append]
    grind
  | .loop _ _ _ body => by
    have hbody := body.mem_varNames
    simp only [Stmt.undeclared, Option.getD_some, Stmt.varNames, Stmt.varStatements,
      List.mem_append]
    grind
  | .loopVarIn _ _ body => by
    have hbody := body.mem_varNames
    simp only [Stmt.undeclared, Option.getD_some, Stmt.varNames, Stmt.varStatements,
      List.mem_cons]
    grind
  | .switch _ clauses => mem_varNamesClauses clauses
  | .tryCatch body _ last | .tryFinally body last => by
    have hbody := mem_varNamesAll body
    have hlast := mem_varNamesAll last
    simp only [Stmt.undeclared, Option.getD_some, Stmt.varNames, Stmt.varStatements,
      boundNames_append, List.mem_append]
    grind
  | .tryCatchFinally body _ handler finalizer => by
    have hbody := mem_varNamesAll body
    have hhandler := mem_varNamesAll handler
    have hfinalizer := mem_varNamesAll finalizer
    simp only [Stmt.undeclared, Option.getD_some, Stmt.varNames, Stmt.varStatements,
      boundNames_append, List.mem_append]
    grind
  | .empty | .expr _ | .continue _ | .break _ | .ret _ | .throw _ | .debugger | .func _ _ _ =>
    ⟨nofun, fun h => h.elim nofun nofun⟩

theorem mem_varNamesAll : ∀ ss : List Stmt, name ∈ varNamesAll ss ↔
    name ∈ boundNames (varStatementsAll ss) ∨ name ∈ varNamesAll (undeclaredAll ss)
  | [] => by simp [varNamesAll, undeclaredAll, varStatementsAll, boundNames]
  | s :: ss => by
    have hs := s.mem_varNames
    have hss := mem_varNamesAll ss
    rw [varNamesAll, varStatementsAll, undeclaredAll, varNamesAll_append, varNamesAll_toList,
      boundNames_append, List.mem_append, List.mem_append, List.mem_append]
    grind

theorem mem_varNamesClauses : ∀ clauses : List Clause, name ∈ varNamesClauses clauses ↔
    name ∈ boundNames (varStatementsClauses clauses) ∨
      name ∈ varNamesClauses (undeclaredClauses clauses)
  | [] => by simp [varNamesClauses, undeclaredClauses, varStatementsClauses, boundNames]
  | .on _ body :: clauses | .otherwise body :: clauses => by
    have hbody := mem_varNamesAll body
    have hclauses := mem_varNamesClauses clauses
    rw [varNamesClauses, varStatementsClauses, undeclaredClauses, varNamesClauses,
      boundNames_append, List.mem_append, List.mem_append, List.mem_append]
    grind

end

theorem mem_varNamesAll_mergeDeclarations (body : List Stmt) :
    name ∈ varNamesAll (mergeDeclarations body) ↔ name ∈ varNamesAll body := by
  obtain h | h := mergeDeclarations_cases body
  · rw [h]
  · rw [h, varNamesAll, Stmt.varNames, List.mem_append, mem_varNamesAll body, List.map_map,
      ← mem_declaredNames]
    simp [Function.comp_def, Binding.name]

end

end Espalier.Script
