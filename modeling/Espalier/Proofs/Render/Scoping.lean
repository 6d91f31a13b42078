import Espalier.Proofs.Render.Conservation
import Espalier.Proofs.Script.Trace

/-!
# The arrays of a render function are unique and in scope

Every array of a render function has a number of its own, is declared once, and occurs only after
its declaration, in the function that declares it or in one nested in it. Main statement:
`resolve_wellScoped`.

The relation `Collects` is the invariant of the induction over the program. A part of a render
function may mention the arrays that are declared around it, its `targets`, and the arrays that it
declares itself have the numbers that the counter ran through while the part was built. The
functions along a chain are resolved against the order of the text, so of two neighbours the first
may have the higher numbers: `Collects.append` and `Collects.append_swap`.
-/

namespace Espalier.Render

open Espalier.Script Espalier.Text

/-! ## Names -/

/-- The name of an array with a number. -/
def Numbered (n : Nat) (name : String) : Prop :=
  name = "$children" ++ toString n ∨ name = "$element" ++ toString n

theorem Numbered.isCollector {n : Nat} {name : String} (h : Numbered n name) :
    isCollector name = true := by
  obtain rfl | rfl := h
  · exact isCollector_children n
  · exact isCollector_element n

/-- The number of an array can be read off its name. -/
theorem Numbered.unique {m n : Nat} {name : String} (h : Numbered m name) (h' : Numbered n name) :
    m = n := by
  obtain rfl | rfl := h <;> obtain h' | h' := h'
  · exact stem_append_injective h'
  · exact absurd h' (children_ne_element m n)
  · exact absurd h'.symm (children_ne_element n m)
  · exact stem_append_injective h'

/-- Two names of arrays that do not have the same number. -/
def Apart (name name' : String) : Prop :=
  ∀ n, ¬(Numbered n name ∧ Numbered n name')

/-- The names that a render function gets from its settings. -/
def Settings.names (settings : Settings) : List String :=
  settings.functionName :: (cutAt '.' settings.factory.toList).map String.ofList

/-- A name of an array that is none of the settings' own names. -/
def Settings.Owns (settings : Settings) (name : String) : Prop :=
  isCollector name = true ∧ name ∉ settings.names

/-- The default settings have no name of an array. -/
theorem owns_default {name : String} (h : isCollector name = true) : ({} : Settings).Owns name := by
  have hnames : ∀ name ∈ ({} : Settings).names, isCollector name = false := by decide
  exact ⟨h, fun hmem => Bool.false_ne_true ((hnames name hmem).symm.trans h)⟩

/-- The arrays that are declared along a trace, one entry for each declaration. -/
def collectors (steps : List Step) : List String :=
  (declared steps).filter (isCollector ·)

theorem collectors_append (steps steps' : List Step) :
    collectors (steps ++ steps') = collectors steps ++ collectors steps' := by
  rw [collectors, declared_append, List.filter_append, collectors, collectors]

/-! ## The invariant -/

/-- The trace of a part of a render function that was built while the counter ran from `n` to `m`,
in a place where the arrays `targets` are declared. -/
structure Collects (settings : Settings) (targets : List String) (n m : Nat) (steps : List Step) :
    Prop where
  le : n ≤ m
  bracketed : Bracketed steps
  /-- The arrays that are declared have numbers that the counter ran through. -/
  numbered : ∀ name ∈ collectors steps, ∃ k, n ≤ k ∧ k < m ∧ Numbered k name
  /-- No two declarations have the same number. -/
  apart : (collectors steps).Pairwise Apart
  /-- Every array that occurs is visible, if the targets are. -/
  inScope : ∀ seen, (∀ target ∈ targets, Visible seen target) → Scoped settings.Owns seen steps

namespace Collects

variable {settings : Settings} {targets : List String} {target array : String} {n m k : Nat}
  {steps steps' : List Step}

/-- A part that neither declares nor mentions an array. -/
theorem of_bare (hbracketed : Bracketed steps) (hdeclared : collectors steps = [])
    (hmention : ∀ name, .mention name ∈ steps → ¬settings.Owns name) :
    Collects settings targets n n steps where
  le := Nat.le_refl n
  bracketed := hbracketed
  numbered := by rw [hdeclared]; exact nofun
  apart := by rw [hdeclared]; exact .nil
  inScope := fun _ _ => .of_forall hmention

/-- Foreign code. -/
theorem of_foreign {names : List String} (htraced : Traced names steps) (hnames : Foreign names) :
    Collects settings targets n n steps := by
  have hforeign : ∀ step ∈ steps, ∀ name, step.name? = some name → isCollector name = false := by
    intro step hstep name hname
    exact hnames name ((htraced.mem_iff name).1 (List.mem_filterMap.2 ⟨step, hstep, hname⟩))
  refine of_bare htraced.bracketed (List.filter_eq_nil_iff.2 fun name hname => ?_)
    fun name hname h => ?_
  · obtain ⟨step, hstep, hdeclared⟩ := List.mem_filterMap.1 hname
    cases step with
    | declare name' =>
      cases hdeclared
      simp [hforeign _ hstep name rfl]
    | _ => cases hdeclared
  · exact Bool.false_ne_true ((hforeign _ hname name rfl).symm.trans h.1)

/-- Names from the settings. -/
theorem of_settings {names : List String} (h : ∀ name ∈ names, name ∈ settings.names) :
    Collects settings targets n n (mentions names) := by
  have hdeclared : ∀ names : List String, declared (mentions names) = [] := by
    intro names
    induction names with
    | nil => rfl
    | cons name names ih => exact ih
  refine of_bare (Traced.mentions names).bracketed ?_ fun name hname hown => ?_
  · rw [collectors, hdeclared, List.filter_nil]
  · obtain ⟨name', hmem, heq⟩ := List.mem_map.1 hname
    cases heq
    exact hown.2 (h name hmem)

/-- A mention of a name that is not the name of an array. -/
theorem mention {name : String} (h : isCollector name = false) :
    Collects settings targets n n [.mention name] :=
  of_foreign (.mention name) (foreign_cons.2 ⟨h, nofun⟩)

/-- A mention of a target. -/
theorem mention_target (h : target ∈ targets) :
    Collects settings targets n n [.mention target] where
  le := Nat.le_refl n
  bracketed := (Traced.mention target).bracketed
  numbered := nofun
  apart := .nil
  inScope := fun _ hvisible => .mention (hvisible target h)

theorem weaken {targets' : List String} (h : Collects settings targets n m steps)
    (hsub : targets ⊆ targets') : Collects settings targets' n m steps where
  le := h.le
  bracketed := h.bracketed
  numbered := h.numbered
  apart := h.apart
  inScope := fun seen hvisible => h.inScope seen fun target hmem => hvisible target (hsub hmem)

/-- Two parts next to each other that declare arrays with different numbers. -/
theorem join {n₁ m₁ n₂ m₂ : Nat} (h : Collects settings targets n₁ m₁ steps)
    (h' : Collects settings targets n₂ m₂ steps') (hnumbers : m₁ ≤ n₂ ∨ m₂ ≤ n₁) :
    Collects settings targets (min n₁ n₂) (max m₁ m₂) (steps ++ steps') where
  le := by have := h.le; omega
  bracketed := h.bracketed.append h'.bracketed
  numbered := by
    intro name hname
    rw [collectors_append] at hname
    obtain hname | hname := List.mem_append.1 hname
    · obtain ⟨k, hle, hlt, hk⟩ := h.numbered name hname
      exact ⟨k, by omega, by omega, hk⟩
    · obtain ⟨k, hle, hlt, hk⟩ := h'.numbered name hname
      exact ⟨k, by omega, by omega, hk⟩
  apart := by
    rw [collectors_append, List.pairwise_append]
    refine ⟨h.apart, h'.apart, fun name hname name' hname' k hk => ?_⟩
    obtain ⟨i, hle, hlt, hi⟩ := h.numbered name hname
    obtain ⟨j, hle', hlt', hj⟩ := h'.numbered name' hname'
    have hik := hi.unique hk.1
    have hjk := hj.unique hk.2
    omega
  inScope := fun seen hvisible => (h.inScope seen hvisible).append <|
    h'.inScope _ fun target hmem => (hvisible target hmem).append_bracketed h.bracketed

/-- Two parts that were built one after the other. -/
theorem append (h : Collects settings targets n k steps)
    (h' : Collects settings targets k m steps') :
    Collects settings targets n m (steps ++ steps') := by
  have hjoin := h.join h' (.inl (Nat.le_refl k))
  rwa [Nat.min_eq_left h.le, Nat.max_eq_right h'.le] at hjoin

/-- Two parts of which the second was built before the first. -/
theorem append_swap (h : Collects settings targets k m steps)
    (h' : Collects settings targets n k steps') :
    Collects settings targets n m (steps ++ steps') := by
  have hjoin := h.join h' (.inr (Nat.le_refl k))
  rwa [Nat.min_eq_right h'.le, Nat.max_eq_left h.le] at hjoin

/-- A function sees the arrays around it. -/
theorem inFunction (h : Collects settings targets n m steps) :
    Collects settings targets n m (inFunction steps) where
  le := h.le
  bracketed := h.bracketed.inFunction
  numbered := by rw [collectors, declared_inFunction]; exact h.numbered
  apart := by rw [collectors, declared_inFunction]; exact h.apart
  inScope := fun seen hvisible => .inFunction <|
    h.inScope _ fun target hmem => (hvisible target hmem).enter

/-- The declaration of an array makes it a target of what follows. -/
theorem declare (harray : Numbered n array)
    (h : Collects settings (array :: targets) (n + 1) m steps) :
    Collects settings targets n m ([.declare array] ++ steps) := by
  have hdeclared : collectors ([.declare array] ++ steps) = array :: collectors steps := by
    rw [collectors_append]
    exact congrArg (· ++ collectors steps) (List.filter_cons_of_pos harray.isCollector)
  refine ⟨Nat.le_of_lt h.le, (Traced.declare array).bracketed.append h.bracketed, ?_, ?_, ?_⟩
  · rw [hdeclared, List.forall_mem_cons]
    refine ⟨⟨n, Nat.le_refl n, h.le, harray⟩, fun name hname => ?_⟩
    obtain ⟨k, hle, hlt, hk⟩ := h.numbered name hname
    exact ⟨k, Nat.le_of_succ_le hle, hlt, hk⟩
  · rw [hdeclared, List.pairwise_cons]
    refine ⟨fun name hname k hk => ?_, h.apart⟩
    obtain ⟨i, hle, -, hi⟩ := h.numbered name hname
    have hnk := harray.unique hk.1
    have hik := hi.unique hk.2
    omega
  · intro seen hvisible
    refine Scoped.append (.of_forall (by simp)) (h.inScope _ ?_)
    rw [List.forall_mem_cons]
    exact ⟨visible_declare seen array,
      fun target hmem => (hvisible target hmem).append_bracketed (Traced.declare array).bracketed⟩

end Collects

/-! ## Pieces of a render function -/

theorem trace_path (first : List Char) (fields : List (List Char)) :
    (path (first :: fields)).trace = mentions ((first :: fields).map String.ofList) := by
  have tail : ∀ (fields : List (List Char)) (owner : Expr),
      (fields.foldl (fun owner field => .dot owner (String.ofList field)) owner).trace
        = owner.trace ++ mentions (fields.map String.ofList) := by
    intro fields
    induction fields with
    | nil => intro owner; exact (List.append_nil owner.trace).symm
    | cons field fields ih =>
      intro owner
      rw [List.foldl_cons, ih, Expr.trace, List.append_assoc]
      rfl
  rw [path, tail]
  rfl

namespace Collects

variable {settings : Settings} {targets : List String} {target : String} {n m : Nat}

/-- A dotted name made of parts of the factory's name. -/
theorem path {parts : List (List Char)} (hne : parts ≠ [])
    (hparts : ∀ part ∈ parts, part ∈ cutAt '.' settings.factory.toList) :
    Collects settings targets n n (path parts).trace := by
  cases parts with
  | nil => exact absurd rfl hne
  | cons first fields =>
    rw [trace_path]
    refine of_settings fun name hname => ?_
    obtain ⟨part, hpart, rfl⟩ := List.mem_map.1 hname
    exact List.mem_cons_of_mem _ (List.mem_map_of_mem (hparts part hpart))

theorem factoryExpr : Collects settings targets n n settings.factoryExpr.trace :=
  path (cutAt_ne_nil _ _) fun _ h => h

theorem receiver : Collects settings targets n n settings.receiver.trace := by
  unfold Settings.receiver
  dsimp only
  split
  case isTrue => exact of_foreign .nil nofun
  case isFalse hsome =>
    refine path (fun hnil => hsome ?_) fun part hpart => List.dropLast_subset _ hpart
    rw [hnil]
    rfl

/-- An element is created from an array in scope. -/
theorem create {array : String} (harray : array ∈ targets) :
    Collects settings targets n n (settings.create array).trace :=
  (factoryExpr.append (mention (by decide))).append
    (receiver.append ((mention_target harray).append (of_foreign .nil nofun)))

theorem rawMarkup {value : Expr} (hvalue : Collects settings targets n n value.trace) :
    Collects settings targets n n (settings.rawMarkup value).trace := by
  have htrace : (settings.rawMarkup value).trace = settings.factoryExpr.trace
      ++ (mentions ["dangerouslySetInnerHTML"] ++ (mentions ["__html"] ++ value.trace)) := by
    simp [Settings.rawMarkup, Expr.trace, exprTrace, propertyTrace, Key.names, mentions]
  rw [htrace]
  exact factoryExpr.append ((mention (by decide)).append ((mention (by decide)).append hvalue))

/-- A value goes into an array in scope. -/
theorem push {value : Expr} (htarget : target ∈ targets)
    (hvalue : Collects settings targets n m value.trace) :
    Collects settings targets n m (push target value).trace :=
  ((mention_target htarget).append (mention (by decide))).append
    (hvalue.append (of_foreign .nil nofun))

/-- The block of an element sees the element's array and the one around it. -/
theorem element {type props : Expr} {children : List Stmt} (htarget : target ∈ targets)
    (hargs : Foreign (exprNames [type, props]))
    (hchildren : Collects settings ["$element" ++ toString n] (n + 1) m (stmtTrace children)) :
    Collects settings targets n m
      (settings.elementBlock target ("$element" ++ toString n) [type, props] children).trace := by
  have htrace : (settings.elementBlock target ("$element" ++ toString n) [type, props]
      children).trace = .declare ("$element" ++ toString n) :: (exprTrace [type, props]
        ++ (stmtTrace children
          ++ (Render.push target (settings.create ("$element" ++ toString n))).trace)) := by
    simp [Settings.elementBlock, Render.declare, Stmt.trace, stmtTrace, stmtTrace_append,
      bindingTrace, Binding.trace, Expr.trace, itemTrace, exprTrace]
  rw [htrace]
  refine declare (.inr rfl) ((of_foreign (exprTraced _) hargs).append ?_)
  exact (hchildren.weaken (by simp)).append
    (push (List.mem_cons_of_mem _ htarget) (create (List.mem_cons_self ..)))

/-- The body of an iteration's function has an array of its own. -/
theorem collectingBody {body : List Stmt}
    (hbody : Collects settings ["$children" ++ toString n] (n + 1) m (stmtTrace body)) :
    Collects settings targets n m
      (stmtTrace (collectingBody ("$children" ++ toString n) body)) := by
  have htrace : stmtTrace (Render.collectingBody ("$children" ++ toString n) body)
      = .declare ("$children" ++ toString n)
        :: (stmtTrace body ++ mentions ["$children" ++ toString n]) := by
    simp [Render.collectingBody, Render.declare, Stmt.trace, stmtTrace, stmtTrace_append,
      bindingTrace, Binding.trace, Expr.trace, itemTrace, optionalTrace, mentions]
  rw [htrace]
  exact declare (.inl rfl)
    ((hbody.weaken (by simp)).append (mention_target (List.mem_cons_self ..)))

/-- The render function has the array that everything goes into. -/
theorem renderFunction {body : List Stmt}
    (hbody : Collects settings ["$children0"] 1 m (stmtTrace body)) :
    Collects settings [] 0 m (stmtTrace [settings.renderFunction "$children0" body]) := by
  have htrace : stmtTrace [settings.renderFunction "$children0" body]
      = mentions [settings.functionName] ++ Script.inFunction (mentions ["block"]
        ++ .declare "$children0" :: (stmtTrace body ++ (mentions ["$children0"]
          ++ (mentions ["length"] ++ (mentions ["$children0"] ++ mentions ["$children0"]))))) := by
    simp [Settings.renderFunction, Render.declare, soleOrAll, Stmt.trace, stmtTrace,
      stmtTrace_append, bindingTrace, Binding.trace, Expr.trace, itemTrace, optionalTrace, mentions]
  have hroot : Collects settings ["$children0"] m m (mentions ["$children0"]) :=
    mention_target (List.mem_cons_self ..)
  rw [htrace]
  refine (of_settings (by simp [Settings.names])).append (.inFunction ?_)
  refine (mention (by decide)).append (declare (n := 0) (.inl (by decide)) (hbody.append ?_))
  exact hroot.append ((mention (by decide)).append (hroot.append hroot))

end Collects

/-! ## The run -/

section
variable {settings : Settings}

/-- An element without children, or an output. -/
theorem resolveStmt_reserved_collects {target id : String} {args : List Expr} {out : Stmt}
    {n m : Nat} (hid : id ∈ Marker.resolved) (hnames : Foreign (exprNames args))
    (h : (resolveStmt settings target (.expr (.call (.name id) args))).run n = .ok (out, m)) :
    Collects settings [target] n m out.trace := by
  simp only [Marker.resolved, List.mem_cons, List.not_mem_nil, or_false] at hid
  obtain rfl | rfl | rfl := hid
  · rw [resolveStmt_element] at h
    obtain ⟨array, k, harray, h⟩ := run_bind_eq_ok.1 h
    obtain ⟨⟨type, props, rfl⟩, rfl, rfl⟩ := run_elementArray harray
    obtain ⟨rfl, rfl⟩ := run_pure_eq_ok.1 h
    exact .element (List.mem_cons_self ..) hnames (.of_foreign .nil nofun)
  · rw [resolveStmt_text] at h
    obtain ⟨value, hvalue, rfl⟩ := run_map_eq_ok.1 h
    obtain ⟨rfl, rfl⟩ := run_onlyArgument hvalue
    exact .push (List.mem_cons_self ..) (.of_foreign value.traced (foreign_append.1 hnames).1)
  · rw [resolveStmt_raw] at h
    obtain ⟨value, hvalue, rfl⟩ := run_map_eq_ok.1 h
    obtain ⟨rfl, rfl⟩ := run_onlyArgument hvalue
    exact .push (List.mem_cons_self ..)
      (.rawMarkup (.of_foreign value.traced (foreign_append.1 hnames).1))

mutual

/-- Statements. -/
theorem resolveAll_collects : ∀ (stmts : List Stmt) {target : String} {out : List Stmt}
    {n m : Nat}, Foreign (stmtNames stmts) →
    (resolveAll settings target stmts).run n = .ok (out, m) →
    Collects settings [target] n m (stmtTrace out)
  | [], _, _, _, _, _, h => by
    rw [resolveAll_nil] at h
    obtain ⟨rfl, rfl⟩ := run_pure_eq_ok.1 h
    exact .of_foreign .nil nofun
  | s :: rest, target, out, n, m, hnames, h => by
    obtain ⟨hs, hrest⟩ := foreign_append.1 hnames
    by_cases hplain : elementCall? s = none ∨ ∀ inner after, rest ≠ .block inner :: after
    · rw [resolveAll_cons settings target s rest hplain] at h
      obtain ⟨s', k, hstmt, h⟩ := run_bind_eq_ok.1 h
      obtain ⟨rest', htail, rfl⟩ := run_map_eq_ok.1 h
      exact (resolveStmt_collects s hs hstmt).append (resolveAll_collects rest hrest htail)
    · simp only [not_or, Classical.not_forall, Classical.not_not] at hplain
      obtain ⟨hsome, inner, after, rfl⟩ := hplain
      obtain ⟨args, hargs⟩ := Option.ne_none_iff_exists'.1 hsome
      obtain rfl := elementCall?_eq_some hargs
      rw [resolveAll_element_block] at h
      obtain ⟨array, k, harray, h⟩ := run_bind_eq_ok.1 h
      obtain ⟨children, k', hchildren, h⟩ := run_bind_eq_ok.1 h
      obtain ⟨after', hafter, rfl⟩ := run_map_eq_ok.1 h
      obtain ⟨⟨type, props, rfl⟩, rfl, rfl⟩ := run_elementArray harray
      obtain ⟨hinner, hafter_names⟩ := foreign_append.1 hrest
      have hblock := resolveAll_collects inner hinner hchildren
      exact (Collects.element (List.mem_cons_self ..) (foreign_cons.1 hs).2 hblock).append
        (resolveAll_collects after hafter_names hafter)
termination_by t => sizeOf t
decreasing_by all_goals (subst_vars; simp +arith)

/-- A statement. -/
theorem resolveStmt_collects : ∀ (s : Stmt) {target : String} {out : Stmt} {n m : Nat},
    Foreign s.names → (resolveStmt settings target s).run n = .ok (out, m) →
    Collects settings [target] n m out.trace
  | .block body, _, _, _, _, hnames, h => by
    rw [resolveStmt] at h
    obtain ⟨body', hbody, rfl⟩ := run_map_eq_ok.1 h
    exact resolveAll_collects body hnames hbody
  | .ifThen e body, _, _, _, _, hnames, h | .while e body, _, _, _, _, hnames, h
  | .withScope e body, _, _, _, _, hnames, h => by
    rw [resolveStmt] at h
    obtain ⟨body', hbody, rfl⟩ := run_map_eq_ok.1 h
    obtain ⟨he, hbody_names⟩ := foreign_append.1 hnames
    exact (Collects.of_foreign e.traced he).append (resolveStmt_collects body hbody_names hbody)
  | .ifElse test yes no, _, _, _, _, hnames, h => by
    rw [resolveStmt] at h
    obtain ⟨yes', k, hyes, h⟩ := run_bind_eq_ok.1 h
    obtain ⟨no', hno, rfl⟩ := run_map_eq_ok.1 h
    obtain ⟨hboth, hno_names⟩ := foreign_append.1 hnames
    obtain ⟨htest, hyes_names⟩ := foreign_append.1 hboth
    exact ((Collects.of_foreign test.traced htest).append
      (resolveStmt_collects yes hyes_names hyes)).append (resolveStmt_collects no hno_names hno)
  | .loop start test next body, _, _, _, _, hnames, h => by
    rw [resolveStmt] at h
    obtain ⟨body', hbody, rfl⟩ := run_map_eq_ok.1 h
    obtain ⟨hhead, hbody_names⟩ := foreign_append.1 hnames
    have htraced := (start.traced.append (optionalTraced test)).append (optionalTraced next)
    exact (Collects.of_foreign htraced hhead).append (resolveStmt_collects body hbody_names hbody)
  | .loopIn item collection body, _, _, _, _, hnames, h => by
    rw [resolveStmt] at h
    obtain ⟨body', hbody, rfl⟩ := run_map_eq_ok.1 h
    obtain ⟨hhead, hbody_names⟩ := foreign_append.1 hnames
    have htraced := item.traced.append collection.traced
    exact (Collects.of_foreign htraced hhead).append (resolveStmt_collects body hbody_names hbody)
  | .loopVarIn item collection body, _, _, _, _, hnames, h => by
    rw [resolveStmt] at h
    obtain ⟨body', hbody, rfl⟩ := run_map_eq_ok.1 h
    obtain ⟨hhead, hbody_names⟩ := foreign_append.1 hnames
    have htraced := (item.traced .mention).append collection.traced
    exact (Collects.of_foreign htraced hhead).append (resolveStmt_collects body hbody_names hbody)
  | .doWhile body test, _, _, _, _, hnames, h => by
    rw [resolveStmt] at h
    obtain ⟨body', hbody, rfl⟩ := run_map_eq_ok.1 h
    obtain ⟨htest, hbody_names⟩ := foreign_append.1 hnames
    exact (resolveStmt_collects body hbody_names hbody).append (.of_foreign test.traced htest)
  | .label name body, _, _, _, _, hnames, h => by
    rw [resolveStmt] at h
    obtain ⟨body', hbody, rfl⟩ := run_map_eq_ok.1 h
    obtain ⟨hname, hbody_names⟩ := foreign_cons.1 hnames
    exact (Collects.mention hname).append (resolveStmt_collects body hbody_names hbody)
  | .switch subject clauses, _, _, _, _, hnames, h => by
    rw [resolveStmt] at h
    obtain ⟨clauses', hclauses, rfl⟩ := run_map_eq_ok.1 h
    obtain ⟨hsubject, hclause_names⟩ := foreign_append.1 hnames
    exact (Collects.of_foreign subject.traced hsubject).append
      (resolveClauses_collects clauses hclause_names hclauses)
  | .tryCatch body param handler, _, _, _, _, hnames, h => by
    rw [resolveStmt] at h
    obtain ⟨body', k, hbody, h⟩ := run_bind_eq_ok.1 h
    obtain ⟨handler', hhandler, rfl⟩ := run_map_eq_ok.1 h
    obtain ⟨hbody_names, hcatch⟩ := foreign_append.1 hnames
    obtain ⟨hparam, hhandler_names⟩ := foreign_cons.1 hcatch
    exact (resolveAll_collects body hbody_names hbody).append
      ((Collects.mention hparam).append (resolveAll_collects handler hhandler_names hhandler))
  | .tryFinally body finalizer, _, _, _, _, hnames, h => by
    rw [resolveStmt] at h
    obtain ⟨body', k, hbody, h⟩ := run_bind_eq_ok.1 h
    obtain ⟨finalizer', hfinalizer, rfl⟩ := run_map_eq_ok.1 h
    obtain ⟨hbody_names, hfinalizer_names⟩ := foreign_append.1 hnames
    exact (resolveAll_collects body hbody_names hbody).append
      (resolveAll_collects finalizer hfinalizer_names hfinalizer)
  | .tryCatchFinally body param handler finalizer, _, _, _, _, hnames, h => by
    rw [resolveStmt] at h
    obtain ⟨body', k, hbody, h⟩ := run_bind_eq_ok.1 h
    obtain ⟨handler', k', hhandler, h⟩ := run_bind_eq_ok.1 h
    obtain ⟨finalizer', hfinalizer, rfl⟩ := run_map_eq_ok.1 h
    obtain ⟨hboth, hfinalizer_names⟩ := foreign_append.1 hnames
    obtain ⟨hbody_names, hcatch⟩ := foreign_append.1 hboth
    obtain ⟨hparam, hhandler_names⟩ := foreign_cons.1 hcatch
    exact ((resolveAll_collects body hbody_names hbody).append ((Collects.mention hparam).append
      (resolveAll_collects handler hhandler_names hhandler))).append
      (resolveAll_collects finalizer hfinalizer_names hfinalizer)
  | .vars _, _, _, _, _, hnames, h | .empty, _, _, _, _, hnames, h
  | .continue _, _, _, _, _, hnames, h | .break _, _, _, _, _, hnames, h
  | .ret _, _, _, _, _, hnames, h | .throw _, _, _, _, _, hnames, h
  | .debugger, _, _, _, _, hnames, h | .func .., _, _, _, _, hnames, h => by
    simp only [resolveStmt, run_pure_eq_ok] at h
    obtain ⟨rfl, rfl⟩ := h
    exact .of_foreign (Stmt.traced _) hnames
  | .expr e, target, out, n, m, hnames, h => by
    by_cases hcall : ∃ id args, e = .call (.name id) args
    · obtain ⟨id, args, rfl⟩ := hcall
      have hid_name : isCollector id = false := (foreign_cons.1 hnames).1
      have hargs : Foreign (exprNames args) := (foreign_cons.1 hnames).2
      by_cases hid : id ∈ Marker.resolved
      · exact resolveStmt_reserved_collects hid hargs h
      by_cases hiterate : id = Marker.iterate
      · subst hiterate
        rw [resolveStmt_iterate] at h
        split at h
        case isFalse => cases h
        case isTrue hshape =>
          obtain ⟨collection, callbacks, rfl, -⟩ := exists_of_iterationShape hshape
          rw [resolveIteration] at h
          obtain ⟨args', hargs', rfl⟩ := run_map_eq_ok.1 h
          obtain ⟨callbacks', hcallbacks, rfl⟩ := run_map_eq_ok.1 hargs'
          obtain ⟨hcollection, hrest⟩ := foreign_append.1 hargs
          have hiterators := resolveIterators_collects callbacks hrest hcallbacks
          exact .push (List.mem_cons_self ..) ((Collects.mention hid_name).append
            ((Collects.of_foreign collection.traced hcollection).append
              (hiterators.weaken (List.nil_subset _))))
      · rw [resolveStmt_call settings target args hid hiterate] at h
        obtain ⟨args', hargs', rfl⟩ := run_map_eq_ok.1 h
        exact (Collects.mention hid_name).append (resolveCallbacks_collects args hargs hargs')
    · simp only [not_exists] at hcall
      rw [resolveStmt_chain settings target hcall] at h
      obtain ⟨e', hchain, rfl⟩ := run_map_eq_ok.1 h
      exact resolveChain_collects e hnames hchain
termination_by t => sizeOf t
decreasing_by all_goals (subst_vars; simp +arith)

/-- A chain of calls, whose last functions get the first numbers. -/
theorem resolveChain_collects : ∀ (e : Expr) {target : String} {out : Expr} {n m : Nat},
    Foreign e.names → (resolveChain settings target e).run n = .ok (out, m) →
    Collects settings [target] n m out.trace
  | e, target, out, n, m, hnames, h => by
    by_cases hcall : ∃ callee args, e = .call callee args
    · obtain ⟨callee, args, rfl⟩ := hcall
      obtain ⟨hcallee, hargs_names⟩ := foreign_append.1 hnames
      by_cases hdot : ∃ owner field, callee = .dot owner field
      · obtain ⟨owner, field, rfl⟩ := hdot
        rw [resolveChain] at h
        obtain ⟨args', k, hargs, h⟩ := run_bind_eq_ok.1 h
        obtain ⟨owner', howner, rfl⟩ := run_map_eq_ok.1 h
        obtain ⟨howner_names, hfield⟩ := foreign_append.1 hcallee
        exact ((resolveChain_collects owner howner_names howner).append
          (.mention (foreign_cons.1 hfield).1)).append_swap
          (resolveCallbacks_collects args hargs_names hargs)
      · simp only [not_exists] at hdot
        rw [resolveChain] at h
        · obtain ⟨args', hargs, rfl⟩ := run_map_eq_ok.1 h
          exact (Collects.of_foreign callee.traced hcallee).append
            (resolveCallbacks_collects args hargs_names hargs)
        · exact fun owner field heq => hdot owner field heq
    · simp only [not_exists] at hcall
      rw [resolveChain_other settings target hcall] at h
      obtain ⟨rfl, rfl⟩ := run_pure_eq_ok.1 h
      exact .of_foreign e.traced hnames
termination_by t => sizeOf t
decreasing_by all_goals (subst_vars; simp +arith)

/-- The functions among arguments. -/
theorem resolveCallbacks_collects : ∀ (args : List Expr) {target : String} {out : List Expr}
    {n m : Nat}, Foreign (exprNames args) →
    (resolveCallbacks settings target args).run n = .ok (out, m) →
    Collects settings [target] n m (exprTrace out)
  | [], _, _, _, _, _, h => by
    rw [resolveCallbacks] at h
    obtain ⟨rfl, rfl⟩ := run_pure_eq_ok.1 h
    exact .of_foreign .nil nofun
  | arg :: rest, target, out, n, m, hnames, h => by
    obtain ⟨harg, hrest_names⟩ := foreign_append.1 hnames
    by_cases hfunc : ∃ name params body, arg = .func name params body
    · obtain ⟨name, params, body, rfl⟩ := hfunc
      rw [resolveCallbacks] at h
      obtain ⟨body', k, hbody, h⟩ := run_bind_eq_ok.1 h
      obtain ⟨rest', hrest, rfl⟩ := run_map_eq_ok.1 h
      obtain ⟨hhead, hbody_names⟩ := foreign_append.1 harg
      exact ((Collects.of_foreign (.mentions _) hhead).append
        (resolveAll_collects body hbody_names hbody)).inFunction.append
        (resolveCallbacks_collects rest hrest_names hrest)
    · simp only [not_exists] at hfunc
      rw [resolveCallbacks_cons settings target hfunc] at h
      obtain ⟨rest', hrest, rfl⟩ := run_map_eq_ok.1 h
      exact (Collects.of_foreign arg.traced harg).append
        (resolveCallbacks_collects rest hrest_names hrest)
termination_by t => sizeOf t
decreasing_by all_goals (subst_vars; simp +arith)

/-- The functions of an iteration, which see no array around them. -/
theorem resolveIterators_collects : ∀ (callbacks : List Expr) {out : List Expr} {n m : Nat},
    Foreign (exprNames callbacks) → (resolveIterators settings callbacks).run n = .ok (out, m) →
    Collects settings [] n m (exprTrace out)
  | [], _, _, _, _, h => by
    rw [resolveIterators] at h
    obtain ⟨rfl, rfl⟩ := run_pure_eq_ok.1 h
    exact .of_foreign .nil nofun
  | arg :: rest, out, n, m, hnames, h => by
    by_cases hfunc : ∃ name params body, arg = .func name params body
    · obtain ⟨name, params, body, rfl⟩ := hfunc
      obtain ⟨harg, hrest_names⟩ := foreign_append.1 hnames
      rw [resolveIterators] at h
      obtain ⟨array, k, harray, h⟩ := run_bind_eq_ok.1 h
      obtain ⟨body', k', hbody, h⟩ := run_bind_eq_ok.1 h
      obtain ⟨rest', hrest, rfl⟩ := run_map_eq_ok.1 h
      cases harray
      obtain ⟨hhead, hbody_names⟩ := foreign_append.1 harg
      have hinner := resolveAll_collects body hbody_names hbody
      exact ((Collects.of_foreign (.mentions _) hhead).append
        hinner.collectingBody).inFunction.append
        (resolveIterators_collects rest hrest_names hrest)
    · simp only [not_exists] at hfunc
      rw [resolveIterators] at h
      · cases h
      · exact fun name params body heq => hfunc name params body heq
termination_by t => sizeOf t
decreasing_by all_goals (subst_vars; simp +arith)

/-- The clauses of a switch. -/
theorem resolveClauses_collects : ∀ (clauses : List Clause) {target : String} {out : List Clause}
    {n m : Nat}, Foreign (clauseNames clauses) →
    (resolveClauses settings target clauses).run n = .ok (out, m) →
    Collects settings [target] n m (clauseTrace out)
  | [], _, _, _, _, _, h => by
    rw [resolveClauses] at h
    obtain ⟨rfl, rfl⟩ := run_pure_eq_ok.1 h
    exact .of_foreign .nil nofun
  | .on label body :: rest, target, out, n, m, hnames, h => by
    rw [resolveClauses] at h
    obtain ⟨body', k, hbody, h⟩ := run_bind_eq_ok.1 h
    obtain ⟨rest', hrest, rfl⟩ := run_map_eq_ok.1 h
    obtain ⟨hfirst, hrest_names⟩ := foreign_append.1 hnames
    obtain ⟨hlabel, hbody_names⟩ := foreign_append.1 hfirst
    exact ((Collects.of_foreign label.traced hlabel).append
      (resolveAll_collects body hbody_names hbody)).append
      (resolveClauses_collects rest hrest_names hrest)
  | .otherwise body :: rest, target, out, n, m, hnames, h => by
    rw [resolveClauses] at h
    obtain ⟨body', k, hbody, h⟩ := run_bind_eq_ok.1 h
    obtain ⟨rest', hrest, rfl⟩ := run_map_eq_ok.1 h
    obtain ⟨hbody_names, hrest_names⟩ := foreign_append.1 hnames
    exact (resolveAll_collects body hbody_names hbody).append
      (resolveClauses_collects rest hrest_names hrest)
termination_by t => sizeOf t
decreasing_by all_goals (subst_vars; simp +arith)

end

end

/-! ## The whole program -/

/-- The arrays of a program with their declarations and mentions. Names that the settings bring are
left out where they look like the name of an array; the default settings bring none
(`owns_default`). -/
structure WellScoped (settings : Settings) (program : Program) : Prop where
  /-- A `var` statement declares the array, and no other does. -/
  declaredOnce : ∀ name ∈ stmtNames program, settings.Owns name →
    (declared (stmtTrace program)).count name = 1
  /-- Each of the declarations has a number. -/
  numbered : ∀ name ∈ collectors (stmtTrace program), ∃ n, Numbered n name
  /-- No two of them have the same. -/
  apart : (collectors (stmtTrace program)).Pairwise Apart
  /-- What comes before a mention of the array has the declaration, in a function that is still
  going on. -/
  visible : ∀ before name after, stmtTrace program = before ++ .mention name :: after →
    settings.Owns name → Visible before name

/-- An array that has a number of its own is declared at most once. -/
theorem count_declared_le_one {steps : List Step} {name : String} (hname : isCollector name = true)
    (hnumbered : ∀ name ∈ collectors steps, ∃ n, Numbered n name)
    (hapart : (collectors steps).Pairwise Apart) : (declared steps).count name ≤ 1 := by
  have hcount : (declared steps).count name = (collectors steps).count name :=
    (List.count_filter hname).symm
  have hnodup : (collectors steps).Nodup := by
    refine hapart.imp_of_mem fun hmem _ hne heq => ?_
    obtain ⟨n, hn⟩ := hnumbered _ hmem
    exact hne n ⟨hn, heq ▸ hn⟩
  rw [hcount]
  exact List.nodup_iff_count.1 hnodup name

theorem wellScoped_of_collects {settings : Settings} {program : Program} {m : Nat}
    (h : Collects settings [] 0 m (stmtTrace program)) : WellScoped settings program := by
  have hnumbered : ∀ name ∈ collectors (stmtTrace program), ∃ n, Numbered n name := by
    intro name hname
    obtain ⟨n, -, -, hn⟩ := h.numbered name hname
    exact ⟨n, hn⟩
  have hscoped : Scoped settings.Owns [] (stmtTrace program) := h.inScope [] nofun
  refine ⟨fun name hname hown => ?_, hnumbered, h.apart, hscoped⟩
  have hmem : name ∈ declared (stmtTrace program) := by
    obtain ⟨step, hstep, hname⟩ :=
      List.mem_filterMap.1 (((stmtTraced program).mem_iff name).2 hname)
    cases step with
    | declare name' => exact List.mem_filterMap.2 ⟨_, hstep, hname⟩
    | mention name' =>
      cases hname
      obtain ⟨before, after, hsplit⟩ := List.append_of_mem hstep
      rw [hsplit, declared_append]
      exact List.mem_append_left _ (hscoped before name after hsplit hown).mem_declared
    | enter | leave => cases hname
  have hle := count_declared_le_one hown.1 hnumbered h.apart
  have hpos := List.count_pos_iff.2 hmem
  omega

/-- The arrays of a render function are declared once and under different numbers, and they occur
only after their declaration, in the function that declares them or in one nested in it. -/
theorem resolve_wellScoped {settings : Settings} {program result : Program}
    (hnames : ∀ name ∈ stmtNames program, isCollector name = false)
    (h : resolve settings program = .ok result) : WellScoped settings result := by
  obtain ⟨body, m, hbody, rfl, -⟩ := resolve_eq_ok_iff.1 h
  have hall : Collects settings ["$children0"] 1 m (stmtTrace body) :=
    resolveAll_collects program hnames hbody
  exact wellScoped_of_collects hall.renderFunction

/-- An element in a function of an author's call, and an iteration inside it. -/
theorem resolve_wellScoped_callback :
    let element := Stmt.expr (.call (.name Marker.element) [.string "\x22li\x22", .null])
    let iteration := Stmt.expr (.call (.name Marker.iterate) [.name "items",
      .func none ["item"] [.expr (.call (.name Marker.text) [.name "item"])]])
    let program := [Stmt.expr (.call (.dot (.name "lists") "forEach")
      [.func none ["items"] [element, .block [iteration]]])]
    ∃ result, resolve {} program = .ok result ∧
      declared (stmtTrace result) = ["$children0", "$element1", "$children2"] ∧
      WellScoped {} result := by
  intro element iteration program
  have hnames : ∀ name ∈ stmtNames program, isCollector name = false := by decide
  exact ⟨_, rfl, by decide +kernel, resolve_wellScoped hnames rfl⟩

end Espalier.Render
