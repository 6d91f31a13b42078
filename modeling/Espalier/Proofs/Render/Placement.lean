import Espalier.Proofs.Render.Conservation

/-!
# Which programs have a render function

Resolving walks over the statements of a program, and the check for names that are left over walks
over all of its identifiers. `placed` lists the statements at the places that the first walk
reaches. Main statement: `resolve_succeeds_iff`, a program has a render function exactly when every
statement at such a place has the arguments that its reserved name takes, and the names that do not
survive are called at such places and occur nowhere else.

The invariant of the induction is `Settles`: a step of resolving yields a result exactly when the
statements at its places fit, and the result holds the reserved names that the input holds, less
those that are called at these places (`Accounts`).
-/

namespace Espalier.Render

open Espalier.Script

/-! ## Places -/

/-- The expression is a function. -/
def isFunction : Expr → Bool
  | .func _ _ _ => true
  | _ => false

/-- The statement is a call of this name. -/
def calls (name : String) : Stmt → Bool
  | .expr (.call (.name id) _) => id == name
  | _ => false

/-- A call of a reserved name has the arguments that the name takes: an element a type and
properties, an output one value, and an iteration a collection and one or two functions. -/
def fits : Stmt → Bool
  | .expr (.call (.name id) args) =>
    if id = Marker.element then args.length == 2
    else if id = Marker.text || id = Marker.raw then args.length == 1
    else if id = Marker.iterate then iterationShape args && args.tail.all isFunction
    else true
  | _ => true

mutual

/-- The statements at the places where calls of reserved names are resolved. -/
def placed : List Stmt → List Stmt
  | [] => []
  | s :: rest => s :: placedBelow s ++ placed rest

/-- The statements at such places below a statement. A call of a reserved name has places below it
only if it is an iteration, whose functions follow its collection. -/
def placedBelow : Stmt → List Stmt
  | .expr (.call (.name id) args) =>
    if id ∈ Marker.resolved then []
    else if id = Marker.iterate then placedIterators args
    else placedCallbacks args
  | .expr e => placedAlong e
  | .block body => placed body
  | .ifThen _ yes => yes :: placedBelow yes
  | .ifElse _ yes no => yes :: placedBelow yes ++ no :: placedBelow no
  | .loop _ _ _ body => body :: placedBelow body
  | .loopIn _ _ body => body :: placedBelow body
  | .loopVarIn _ _ body => body :: placedBelow body
  | .while _ body => body :: placedBelow body
  | .doWhile body _ => body :: placedBelow body
  | .withScope _ body => body :: placedBelow body
  | .label _ body => body :: placedBelow body
  | .switch _ clauses => placedClauses clauses
  | .tryCatch body _ handler => placed body ++ placed handler
  | .tryFinally body finalizer => placed body ++ placed finalizer
  | .tryCatchFinally body _ handler finalizer =>
    placed body ++ placed handler ++ placed finalizer
  | .vars _ | .empty | .continue _ | .break _ | .ret _ | .throw _ | .debugger | .func _ _ _ => []

/-- The statements at such places in the functions handed along a chain of calls that are linked by
dots, the last call first. -/
def placedAlong : Expr → List Stmt
  | .call (.dot owner _) args => placedCallbacks args ++ placedAlong owner
  | .call _ args => placedCallbacks args
  | _ => []

/-- The statements at such places in the functions among arguments. -/
def placedCallbacks : List Expr → List Stmt
  | [] => []
  | .func _ _ body :: rest => placed body ++ placedCallbacks rest
  | _ :: rest => placedCallbacks rest

/-- The statements at such places in the functions of an iteration. -/
def placedIterators : List Expr → List Stmt
  | [] => []
  | _ :: callbacks => placedCallbacks callbacks

/-- The statements at such places in the clauses of a switch. -/
def placedClauses : List Clause → List Stmt
  | [] => []
  | .on _ body :: rest => placed body ++ placedClauses rest
  | .otherwise body :: rest => placed body ++ placedClauses rest

end

/-! ## Names before and after -/

/-- Of the names before, those are left after that are not called at one of the places. -/
def Accounts (before after : List String) (places : List Stmt) : Prop :=
  ∀ name ∈ Marker.resolved, before.count name = after.count name + places.countP (calls name)

theorem Accounts.refl (names : List String) : Accounts names names [] :=
  fun _ _ => rfl

theorem Accounts.append {a a' b b' : List String} {p q : List Stmt} (ha : Accounts a a' p)
    (hb : Accounts b b' q) : Accounts (a ++ b) (a' ++ b') (p ++ q) := by
  intro name hname
  simp only [List.count_append, List.countP_append, ha name hname, hb name hname]
  omega

/-- Names in front that stay. -/
theorem Accounts.after {a a' : List String} {p : List Stmt} (names : List String)
    (h : Accounts a a' p) : Accounts (names ++ a) (names ++ a') p :=
  (Accounts.refl names).append h

/-- Names behind that stay. -/
theorem Accounts.before {a a' : List String} {p : List Stmt} (h : Accounts a a' p)
    (names : List String) : Accounts (a ++ names) (a' ++ names) p := by
  have hboth := h.append (.refl names)
  rwa [List.append_nil] at hboth

/-- A place where no reserved name is called. -/
theorem Accounts.cons {a a' : List String} {p : List Stmt} {s : Stmt}
    (hs : ∀ name ∈ Marker.resolved, calls name s = false) (h : Accounts a a' p) :
    Accounts a a' (s :: p) := by
  intro name hname
  rw [List.countP_cons_of_neg (by simp [hs name hname]), h name hname]

/-- Two parts, the second of which is resolved first. -/
theorem Accounts.append_swap {a a' b b' : List String} {p q : List Stmt} (ha : Accounts a a' p)
    (hb : Accounts b b' q) : Accounts (a ++ b) (a' ++ b') (q ++ p) := by
  intro name hname
  simp only [List.count_append, List.countP_append, ha name hname, hb name hname]
  omega

/-- A call gives its name up. -/
theorem Accounts.call (id : String) (args : List Expr) :
    Accounts (id :: exprNames args) (exprNames args) [.expr (.call (.name id) args)] := by
  intro name _
  by_cases h : id = name
  · subst h
    simp [calls]
  · simp [calls, h]

/-- Reserved names are counted in the result alone. -/
theorem Accounts.of_count_eq {a a' out : List String} {p : List Stmt} (h : Accounts a a' p)
    (hcount : ∀ name ∈ Marker.resolved, out.count name = a'.count name) : Accounts a out p := by
  intro name hname
  rw [hcount name hname, h name hname]

/-! ## Reserved names of the pieces -/

section
variable {settings : Settings} {target array name : String}

theorem count_eq_zero_of_unreserved {names : List String} (h : ∀ id ∈ names, Unreserved id)
    (hname : name ∈ Marker.resolved) : names.count name = 0 :=
  List.count_eq_zero_of_not_mem fun hmem => h name hmem hname

theorem count_cons_of_isCollector (harray : isCollector array = true)
    (hname : name ∈ Marker.resolved) (names : List String) :
    (array :: names).count name = names.count name := by
  refine List.count_cons_of_ne fun heq => ?_
  exact unreserved_of_isCollector harray (heq ▸ hname)

theorem count_push (htarget : isCollector target = true) (hname : name ∈ Marker.resolved)
    (value : Expr) : (push target value).names.count name = value.names.count name := by
  have hpush : "push" ≠ name := by
    rintro rfl
    revert hname
    decide
  rw [names_push, count_cons_of_isCollector htarget hname, List.count_cons_of_ne hpush]

theorem count_rawMarkup (h : settings.Unreserved) (hname : name ∈ Marker.resolved)
    (value : Expr) : (settings.rawMarkup value).names.count name = value.names.count name := by
  have fixed : ∀ id ∈ settings.factoryExpr.names ++ ["dangerouslySetInnerHTML", "__html"],
      Unreserved id := List.forall_mem_append.2 ⟨h.factoryExpr, by decide⟩
  have split : (settings.rawMarkup value).names
      = (settings.factoryExpr.names ++ ["dangerouslySetInnerHTML", "__html"]) ++ value.names := by
    rw [names_rawMarkup, List.append_assoc]
    rfl
  rw [split, List.count_append, count_eq_zero_of_unreserved fixed hname, Nat.zero_add]

theorem count_elementBlock (h : settings.Unreserved) (htarget : isCollector target = true)
    (harray : isCollector array = true) (hname : name ∈ Marker.resolved) (args : List Expr)
    (children : List Stmt) :
    (settings.elementBlock target array args children).names.count name
      = (exprNames args ++ stmtNames children).count name := by
  have created := count_eq_zero_of_unreserved
    (unreserved_push htarget (unreserved_create h harray)) hname
  rw [Settings.elementBlock, Stmt.names, List.cons_append, stmtNames, stmtNames_append,
    names_declare, Expr.names, itemNames_map_value, List.cons_append,
    count_cons_of_isCollector harray hname, stmtNames, stmtNames, List.append_nil,
    List.count_append, List.count_append, List.count_append, created, Nat.add_zero]

theorem count_collectingBody (harray : isCollector array = true) (hname : name ∈ Marker.resolved)
    (body : List Stmt) :
    (stmtNames (collectingBody array body)).count name = (stmtNames body).count name := by
  have split : stmtNames (collectingBody array body) = array :: (stmtNames body ++ [array]) := by
    simp [collectingBody, stmtNames, stmtNames_append, names_declare, Expr.names, itemNames,
      Stmt.names, optionalNames]
  rw [split, count_cons_of_isCollector harray hname, List.count_append,
    count_cons_of_isCollector harray hname, List.count_nil, Nat.add_zero]

theorem count_renderFunction (h : settings.Unreserved) (harray : isCollector array = true)
    (hname : name ∈ Marker.resolved) (body : List Stmt) :
    (stmtNames [settings.renderFunction array body]).count name
      = (stmtNames body).count name := by
  have frame : ∀ id ∈ stmtNames [settings.renderFunction array []], Unreserved id :=
    unreserved_renderFunction h harray (List.forall_mem_nil _)
  have around := count_eq_zero_of_unreserved frame hname
  rw [names_renderFunction] at around ⊢
  simp only [List.count_cons, List.count_append, stmtNames, List.count_nil] at around ⊢
  omega

end

/-! ## Steps of resolving -/

/-- A step yields a result when the statements at its places fit, and only then; the result is as
promised. -/
structure Settles {α : Type} (step : Resolving α) (places : List Stmt) (promise : α → Prop) :
    Prop where
  yields : (∀ s ∈ places, fits s = true) → ∀ n, ∃ a m, step.run n = .ok (a, m)
  sound : ∀ {n a m}, step.run n = .ok (a, m) → (∀ s ∈ places, fits s = true) ∧ promise a

section
variable {α β : Type} {step : Resolving α} {places places' : List Stmt} {P : α → Prop}
  {Q : β → Prop}

theorem Settles.pure {a : α} (h : P a) : Settles (pure a) [] P where
  yields _ n := ⟨a, n, rfl⟩
  sound hrun := by
    obtain ⟨rfl, -⟩ := run_pure_eq_ok.1 hrun
    exact ⟨List.forall_mem_nil _, h⟩

theorem Settles.bind {next : α → Resolving β} (hstep : Settles step places P)
    (hnext : ∀ a, P a → Settles (next a) places' Q) :
    Settles (step >>= next) (places ++ places') Q where
  yields h n := by
    obtain ⟨hfirst, hsecond⟩ := List.forall_mem_append.1 h
    obtain ⟨a, k, ha⟩ := hstep.yields hfirst n
    obtain ⟨b, m, hb⟩ := (hnext a (hstep.sound ha).2).yields hsecond k
    exact ⟨b, m, run_bind_eq_ok.2 ⟨a, k, ha, hb⟩⟩
  sound hrun := by
    obtain ⟨a, k, ha, hb⟩ := run_bind_eq_ok.1 hrun
    obtain ⟨hfirst, hpromise⟩ := hstep.sound ha
    obtain ⟨hsecond, hresult⟩ := (hnext a hpromise).sound hb
    exact ⟨List.forall_mem_append.2 ⟨hfirst, hsecond⟩, hresult⟩

/-- A step whose result is only wrapped. -/
theorem Settles.map {f : α → β} (hstep : Settles step places P) (h : ∀ a, P a → Q (f a)) :
    Settles (step >>= fun a => Pure.pure (f a)) places Q := by
  have hbind : Settles (step >>= fun a => Pure.pure (f a)) (places ++ []) Q :=
    hstep.bind fun a ha => .pure (h a ha)
  rwa [List.append_nil] at hbind

/-- A place where any statement of this form fits. -/
theorem Settles.cons {s : Stmt} (hs : fits s = true) (h : Settles step places P) :
    Settles step (s :: places) P where
  yields hall := h.yields (List.forall_mem_cons.1 hall).2
  sound hrun := ⟨List.forall_mem_cons.2 ⟨hs, (h.sound hrun).1⟩, (h.sound hrun).2⟩

end

theorem settles_fresh (stem : String) :
    Settles (fresh stem) [] fun name => ∃ n : Nat, name = stem ++ toString n where
  yields _ n := ⟨stem ++ toString n, n + 1, run_fresh stem n⟩
  sound {n _ _} hrun := by
    rw [run_fresh] at hrun
    cases hrun
    exact ⟨List.forall_mem_nil _, n, rfl⟩

/-- A step that yields nothing, at a place that does not fit. -/
theorem Settles.of_unfit {α : Type} {step : Resolving α} {places : List Stmt} {P : α → Prop}
    {s : Stmt} (hs : fits s = false) (h : ∀ n a m, step.run n ≠ .ok (a, m)) :
    Settles step (s :: places) P where
  yields hall := absurd (hall s (List.mem_cons_self ..)) (by simp [hs])
  sound hrun := absurd hrun (h _ _ _)

/-! ## Fitting calls -/

@[simp] theorem fits_element (args : List Expr) :
    fits (.expr (.call (.name Marker.element) args)) = (args.length == 2) := by
  rw [fits, if_pos rfl]

/-- An output takes one value. -/
theorem fits_output {id : String} (hid : id = Marker.text ∨ id = Marker.raw) (args : List Expr) :
    fits (.expr (.call (.name id) args)) = (args.length == 1) := by
  rcases hid with rfl | rfl
  all_goals
    rw [fits, if_neg (by decide), if_pos (by decide)]

@[simp] theorem fits_iterate (args : List Expr) :
    fits (.expr (.call (.name Marker.iterate) args))
      = (iterationShape args && args.tail.all isFunction) := by
  rw [fits, if_neg (by decide), if_neg (by decide), if_pos rfl]

/-- Any arguments fit a name that is not reserved. -/
theorem fits_call {id : String} (args : List Expr) (hresolved : id ∉ Marker.resolved)
    (hiterate : id ≠ Marker.iterate) : fits (.expr (.call (.name id) args)) = true := by
  simp only [Marker.resolved, List.mem_cons, List.not_mem_nil, or_false, not_or] at hresolved
  obtain ⟨helement, htext, hraw⟩ := hresolved
  rw [fits, if_neg helement, if_neg (by simp [htext, hraw]), if_neg hiterate]

/-- The array of an element is named when its call fits. -/
theorem settles_elementArray (args : List Expr) :
    Settles (elementArray args) [.expr (.call (.name Marker.element) args)]
      fun array => isCollector array = true where
  yields h n := by
    have two : args.length = 2 := by simpa using h
    exact ⟨_, _, by rw [elementArray, if_pos two, run_fresh]⟩
  sound hrun := by
    obtain ⟨⟨type, props, rfl⟩, rfl, -⟩ := run_elementArray hrun
    exact ⟨by simp, isCollector_element _⟩

/-- The value of an output is found when its call fits. -/
theorem settles_onlyArgument {id : String} (hid : id = Marker.text ∨ id = Marker.raw)
    (args : List Expr) :
    Settles (onlyArgument id args) [.expr (.call (.name id) args)]
      fun value => args = [value] where
  yields h n := by
    have one : args.length = 1 := by simpa [fits_output hid] using h
    obtain ⟨value, rfl⟩ := List.length_eq_one_iff.1 one
    exact ⟨value, n, rfl⟩
  sound hrun := by
    obtain ⟨rfl, -⟩ := run_onlyArgument hrun
    exact ⟨by simp [fits_output hid], rfl⟩

/-! ## The induction -/

section
variable {settings : Settings}

/-- A call of a name that does not survive. -/
theorem resolveStmt_reserved_settles (hsettings : settings.Unreserved) {target id : String}
    (htarget : isCollector target = true) (hid : id ∈ Marker.resolved) (args : List Expr) :
    Settles (resolveStmt settings target (.expr (.call (.name id) args)))
      [.expr (.call (.name id) args)]
      fun out => Accounts (id :: exprNames args) out.names [.expr (.call (.name id) args)] := by
  have hcall := Accounts.call id args
  simp only [Marker.resolved, List.mem_cons, List.not_mem_nil, or_false] at hid
  obtain rfl | rfl | rfl := hid
  · rw [resolveStmt_element]
    refine (settles_elementArray args).map fun array harray => hcall.of_count_eq ?_
    intro name hname
    rw [count_elementBlock hsettings htarget harray hname, stmtNames, List.append_nil]
  · rw [resolveStmt_text]
    refine (settles_onlyArgument (.inl rfl) args).map fun value hvalue => hcall.of_count_eq ?_
    intro name hname
    rw [count_push htarget hname, hvalue, exprNames, exprNames, List.append_nil]
  · rw [resolveStmt_raw]
    refine (settles_onlyArgument (.inr rfl) args).map fun value hvalue => hcall.of_count_eq ?_
    intro name hname
    rw [count_push htarget hname, count_rawMarkup hsettings hname, hvalue, exprNames, exprNames,
      List.append_nil]

/-- A call of a name that survives is no call of one that does not. -/
theorem calls_of_unreserved {id name : String} {args : List Expr} (hid : id ∉ Marker.resolved)
    (hname : name ∈ Marker.resolved) : calls name (.expr (.call (.name id) args)) = false := by
  rw [calls, beq_eq_false_iff_ne]
  exact fun heq => hid (heq ▸ hname)

theorem exists_of_isFunction {e : Expr} (h : isFunction e = true) :
    ∃ name params body, e = .func name params body := by
  unfold isFunction at h
  split at h
  case h_1 name params body => exact ⟨name, params, body, rfl⟩
  case h_2 => cases h

/-- Iterating over anything but functions is refused. -/
theorem isFunction_of_resolveIterators : ∀ (callbacks : List Expr) {out : List Expr} {n m : Nat},
    (resolveIterators settings callbacks).run n = .ok (out, m) →
    callbacks.all isFunction = true := by
  intro callbacks
  induction callbacks with
  | nil => intro _ _ _ _; rfl
  | cons callback rest ih =>
    intro out n m h
    unfold resolveIterators at h
    split at h
    case h_1 heq => cases heq
    case h_2 heq =>
      cases heq
      obtain ⟨array, k, -, h⟩ := run_bind_eq_ok.1 h
      obtain ⟨body, k', -, h⟩ := run_bind_eq_ok.1 h
      obtain ⟨rest', hrest, -⟩ := run_map_eq_ok.1 h
      exact ih hrest
    case h_3 => cases h

/-- An iteration settles if its functions do. -/
theorem settles_iteration {target : String} (htarget : isCollector target = true)
    (args : List Expr) {places : List Stmt}
    (hargs : args.tail.all isFunction = true →
      Settles (resolveIteration settings args) places
        fun out => Accounts (exprNames args) (exprNames out) places) :
    Settles (resolveStmt settings target (.expr (.call (.name Marker.iterate) args)))
      (.expr (.call (.name Marker.iterate) args) :: places)
      fun out => Accounts (Marker.iterate :: exprNames args) out.names
        (.expr (.call (.name Marker.iterate) args) :: places) := by
  rw [resolveStmt_iterate]
  cases hfits : fits (.expr (.call (.name Marker.iterate) args)) with
  | true =>
    have hshape := hfits
    rw [fits_iterate, Bool.and_eq_true] at hshape
    obtain ⟨hshape, hfunctions⟩ := hshape
    rw [if_pos hshape]
    refine .cons hfits ((hargs hfunctions).map fun out hout => ?_)
    refine ((hout.after [Marker.iterate]).of_count_eq fun name hname => ?_).cons
      fun _ hname => calls_of_unreserved (by decide) hname
    rw [count_push htarget hname]
    rfl
  | false =>
    refine .of_unfit hfits fun n out m h => ?_
    rw [fits_iterate, Bool.and_eq_false_iff] at hfits
    split at h
    case isTrue hshape =>
      obtain ⟨out, hout, -⟩ := run_map_eq_ok.1 h
      obtain ⟨collection, callbacks, rfl, -⟩ := exists_of_iterationShape hshape
      rw [resolveIteration] at hout
      obtain ⟨callbacks', hcallbacks, -⟩ := run_map_eq_ok.1 hout
      have hfunctions := isFunction_of_resolveIterators callbacks hcallbacks
      simp [hshape, hfunctions] at hfits
    case isFalse => cases h

/-- A statement without places below it that stays as it is. -/
theorem settles_unchanged {target : String} {s : Stmt}
    (hstep : resolveStmt settings target s = pure s) (hbelow : placedBelow s = [])
    (hfits : fits s = true) (hcalls : ∀ name ∈ Marker.resolved, calls name s = false) :
    Settles (resolveStmt settings target s) (s :: placedBelow s)
      fun out => Accounts s.names out.names (s :: placedBelow s) := by
  rw [hstep, hbelow]
  exact .cons hfits (.pure ((Accounts.refl _).cons hcalls))

section
variable {e : Expr} (h : ∀ id args, e ≠ .call (.name id) args)
include h

theorem placedBelow_chain : placedBelow (.expr e) = placedAlong e := by
  rw [placedBelow]
  exact fun id args heq => h id args heq

theorem fits_chain : fits (.expr e) = true := by
  unfold fits
  split
  case h_1 heq => cases heq; exact absurd rfl (h _ _)
  case h_2 => rfl

theorem calls_chain {name : String} : calls name (.expr e) = false := by
  unfold calls
  split
  case h_1 heq => cases heq; exact absurd rfl (h _ _)
  case h_2 => rfl

end

theorem placedAlong_call {callee : Expr} {args : List Expr}
    (h : ∀ owner field, callee ≠ .dot owner field) :
    placedAlong (.call callee args) = placedCallbacks args := by
  rw [placedAlong]
  exact fun owner field heq => h owner field heq

theorem placedAlong_other {e : Expr} (h : ∀ callee args, e ≠ .call callee args) :
    placedAlong e = [] := by
  rw [placedAlong]
  · exact fun owner field args heq => h _ args heq
  · exact fun callee args heq => h callee args heq

theorem placedCallbacks_cons {arg : Expr} (h : ∀ name params body, arg ≠ .func name params body)
    (rest : List Expr) : placedCallbacks (arg :: rest) = placedCallbacks rest := by
  rw [placedCallbacks]
  exact fun name params body heq => h name params body heq

mutual

/-- Statements. -/
theorem resolveAll_settles (hsettings : settings.Unreserved) : ∀ (stmts : List Stmt)
    {target : String}, isCollector target = true →
    Settles (resolveAll settings target stmts) (placed stmts)
      fun out => Accounts (stmtNames stmts) (stmtNames out) (placed stmts)
  | [], _, _ => by
    rw [resolveAll_nil, placed]
    exact .pure (.refl _)
  | s :: rest, target, htarget => by
    by_cases hplain : elementCall? s = none ∨ ∀ inner after, rest ≠ .block inner :: after
    · rw [resolveAll_cons settings target s rest hplain, placed]
      refine (resolveStmt_settles hsettings s htarget).bind fun s' hs => ?_
      refine (resolveAll_settles hsettings rest htarget).map fun rest' hrest => ?_
      exact hs.append hrest
    · simp only [not_or, Classical.not_forall, Classical.not_not] at hplain
      obtain ⟨hsome, inner, after, rfl⟩ := hplain
      obtain ⟨args, hargs⟩ := Option.ne_none_iff_exists'.1 hsome
      obtain rfl := elementCall?_eq_some hargs
      rw [resolveAll_element_block, placed, placed, placedBelow, if_pos (by decide), placedBelow]
      refine (settles_elementArray args).bind fun array harray => ?_
      refine .cons rfl ?_
      refine (resolveAll_settles hsettings inner harray).bind fun children hchildren => ?_
      refine (resolveAll_settles hsettings after htarget).map fun after' hafter => ?_
      have hblock :
          Accounts (stmtNames inner) (stmtNames children) (.block inner :: placed inner) :=
        hchildren.cons fun _ _ => rfl
      have helement := (((Accounts.call Marker.element args).append hblock).of_count_eq
        fun name hname => count_elementBlock hsettings htarget harray hname args children).append
          hafter
      simpa [stmtNames, Stmt.names, Expr.names] using helement
termination_by t => sizeOf t
decreasing_by all_goals (subst_vars; simp +arith)

/-- A statement. -/
theorem resolveStmt_settles (hsettings : settings.Unreserved) : ∀ (s : Stmt) {target : String},
    isCollector target = true →
    Settles (resolveStmt settings target s) (s :: placedBelow s)
      fun out => Accounts s.names out.names (s :: placedBelow s)
  | .block body, target, htarget => by
    rw [resolveStmt, placedBelow]
    refine .cons rfl ((resolveAll_settles hsettings body htarget).map fun body' hbody => ?_)
    exact hbody.cons fun _ _ => rfl
  | .ifThen test yes, target, htarget => by
    rw [resolveStmt, placedBelow]
    refine .cons rfl ((resolveStmt_settles hsettings yes htarget).map fun _ hyes => ?_)
    exact (hyes.after _).cons fun _ _ => rfl
  | .loop start test next body, target, htarget => by
    rw [resolveStmt, placedBelow]
    refine .cons rfl ((resolveStmt_settles hsettings body htarget).map fun _ hbody => ?_)
    exact (hbody.after _).cons fun _ _ => rfl
  | .loopIn item collection body, target, htarget => by
    rw [resolveStmt, placedBelow]
    refine .cons rfl ((resolveStmt_settles hsettings body htarget).map fun _ hbody => ?_)
    exact (hbody.after _).cons fun _ _ => rfl
  | .loopVarIn item collection body, target, htarget => by
    rw [resolveStmt, placedBelow]
    refine .cons rfl ((resolveStmt_settles hsettings body htarget).map fun _ hbody => ?_)
    exact (hbody.after _).cons fun _ _ => rfl
  | .while test body, target, htarget => by
    rw [resolveStmt, placedBelow]
    refine .cons rfl ((resolveStmt_settles hsettings body htarget).map fun _ hbody => ?_)
    exact (hbody.after _).cons fun _ _ => rfl
  | .doWhile body test, target, htarget => by
    rw [resolveStmt, placedBelow]
    refine .cons rfl ((resolveStmt_settles hsettings body htarget).map fun _ hbody => ?_)
    exact (hbody.after _).cons fun _ _ => rfl
  | .withScope scope body, target, htarget => by
    rw [resolveStmt, placedBelow]
    refine .cons rfl ((resolveStmt_settles hsettings body htarget).map fun _ hbody => ?_)
    exact (hbody.after _).cons fun _ _ => rfl
  | .label name body, target, htarget => by
    rw [resolveStmt, placedBelow]
    refine .cons rfl ((resolveStmt_settles hsettings body htarget).map fun _ hbody => ?_)
    exact (hbody.after [name]).cons fun _ _ => rfl
  | .ifElse test yes no, target, htarget => by
    rw [resolveStmt, placedBelow]
    refine .cons rfl ((resolveStmt_settles hsettings yes htarget).bind fun yes' hyes => ?_)
    refine (resolveStmt_settles hsettings no htarget).map fun no' hno => ?_
    exact ((hyes.after test.names).append hno).cons fun _ _ => rfl
  | .switch subject clauses, target, htarget => by
    rw [resolveStmt, placedBelow]
    refine .cons rfl ((resolveClauses_settles hsettings clauses htarget).map fun _ hclauses => ?_)
    exact (hclauses.after _).cons fun _ _ => rfl
  | .tryCatch body param handler, target, htarget => by
    rw [resolveStmt, placedBelow]
    refine .cons rfl ((resolveAll_settles hsettings body htarget).bind fun body' hbody => ?_)
    refine (resolveAll_settles hsettings handler htarget).map fun handler' hhandler => ?_
    exact (hbody.append (hhandler.after [param])).cons fun _ _ => rfl
  | .tryFinally body finalizer, target, htarget => by
    rw [resolveStmt, placedBelow]
    refine .cons rfl ((resolveAll_settles hsettings body htarget).bind fun body' hbody => ?_)
    refine (resolveAll_settles hsettings finalizer htarget).map fun finalizer' hfinalizer => ?_
    exact (hbody.append hfinalizer).cons fun _ _ => rfl
  | .tryCatchFinally body param handler finalizer, target, htarget => by
    rw [resolveStmt, placedBelow, List.append_assoc]
    refine .cons rfl ((resolveAll_settles hsettings body htarget).bind fun body' hbody => ?_)
    refine (resolveAll_settles hsettings handler htarget).bind fun handler' hhandler => ?_
    refine (resolveAll_settles hsettings finalizer htarget).map fun finalizer' hfinalizer => ?_
    have hall := (hbody.append (hhandler.after [param])).append hfinalizer
    rw [List.append_assoc (placed body)] at hall
    exact hall.cons fun _ _ => rfl
  | .expr e, target, htarget => by
    by_cases hcall : ∃ id args, e = .call (.name id) args
    · obtain ⟨id, args, rfl⟩ := hcall
      by_cases hresolved : id ∈ Marker.resolved
      · rw [placedBelow, if_pos hresolved]
        exact resolveStmt_reserved_settles hsettings htarget hresolved args
      · rw [placedBelow, if_neg hresolved]
        by_cases hiterate : id = Marker.iterate
        · subst hiterate
          rw [if_pos rfl]
          exact settles_iteration htarget args fun hfunctions =>
            resolveIteration_settles hsettings args hfunctions
        · rw [resolveStmt_call settings target args hresolved hiterate, if_neg hiterate]
          refine .cons (fits_call args hresolved hiterate) ?_
          refine (resolveCallbacks_settles hsettings args htarget).map fun args' hargs => ?_
          exact (hargs.after [id]).cons fun _ hname => calls_of_unreserved hresolved hname
    · have hchain : ∀ id args, e ≠ .call (.name id) args :=
        fun id args heq => hcall ⟨id, args, heq⟩
      rw [resolveStmt_chain settings target hchain, placedBelow_chain hchain]
      refine .cons (fits_chain hchain) ?_
      refine (resolveChain_settles hsettings e htarget).map fun e' he => ?_
      exact he.cons fun _ _ => calls_chain hchain
  | .vars _, _, _ =>
    settles_unchanged (by simp only [resolveStmt]) (by rw [placedBelow]) rfl fun _ _ => rfl
  | .empty, _, _ =>
    settles_unchanged (by simp only [resolveStmt]) (by rw [placedBelow]) rfl fun _ _ => rfl
  | .continue _, _, _ =>
    settles_unchanged (by simp only [resolveStmt]) (by rw [placedBelow]) rfl fun _ _ => rfl
  | .break _, _, _ =>
    settles_unchanged (by simp only [resolveStmt]) (by rw [placedBelow]) rfl fun _ _ => rfl
  | .ret _, _, _ =>
    settles_unchanged (by simp only [resolveStmt]) (by rw [placedBelow]) rfl fun _ _ => rfl
  | .throw _, _, _ =>
    settles_unchanged (by simp only [resolveStmt]) (by rw [placedBelow]) rfl fun _ _ => rfl
  | .debugger, _, _ =>
    settles_unchanged (by simp only [resolveStmt]) (by rw [placedBelow]) rfl fun _ _ => rfl
  | .func _ _ _, _, _ =>
    settles_unchanged (by simp only [resolveStmt]) (by rw [placedBelow]) rfl fun _ _ => rfl
termination_by t => sizeOf t
decreasing_by all_goals (subst_vars; simp +arith)

/-- The functions handed along a chain. -/
theorem resolveChain_settles (hsettings : settings.Unreserved) : ∀ (e : Expr) {target : String},
    isCollector target = true →
    Settles (resolveChain settings target e) (placedAlong e)
      fun out => Accounts e.names out.names (placedAlong e)
  | e, target, htarget => by
    by_cases hcall : ∃ callee args, e = .call callee args
    · obtain ⟨callee, args, rfl⟩ := hcall
      by_cases hdot : ∃ owner field, callee = .dot owner field
      · obtain ⟨owner, field, rfl⟩ := hdot
        rw [resolveChain, placedAlong]
        refine (resolveCallbacks_settles hsettings args htarget).bind fun args' hargs => ?_
        refine (resolveChain_settles hsettings owner htarget).map fun owner' howner => ?_
        exact (howner.before [field]).append_swap hargs
      · have hplain : ∀ owner field, callee ≠ .dot owner field :=
          fun owner field heq => hdot ⟨owner, field, heq⟩
        rw [resolveChain, placedAlong_call hplain]
        · refine (resolveCallbacks_settles hsettings args htarget).map fun args' hargs => ?_
          exact hargs.after callee.names
        · exact fun owner field heq => hplain owner field heq
    · have hother : ∀ callee args, e ≠ .call callee args :=
        fun callee args heq => hcall ⟨callee, args, heq⟩
      rw [resolveChain_other settings target hother, placedAlong_other hother]
      exact .pure (.refl _)
termination_by t => sizeOf t
decreasing_by all_goals (subst_vars; simp +arith)

/-- Functions among arguments. -/
theorem resolveCallbacks_settles (hsettings : settings.Unreserved) : ∀ (args : List Expr)
    {target : String}, isCollector target = true →
    Settles (resolveCallbacks settings target args) (placedCallbacks args)
      fun out => Accounts (exprNames args) (exprNames out) (placedCallbacks args)
  | [], target, htarget => by
    rw [resolveCallbacks, placedCallbacks]
    exact .pure (.refl _)
  | arg :: rest, target, htarget => by
    by_cases hfunction : ∃ name params body, arg = .func name params body
    · obtain ⟨name, params, body, rfl⟩ := hfunction
      rw [resolveCallbacks, placedCallbacks]
      refine (resolveAll_settles hsettings body htarget).bind fun body' hbody => ?_
      rw [pure_bind]
      refine (resolveCallbacks_settles hsettings rest htarget).map fun rest' hrest => ?_
      exact (hbody.after (name.toList ++ params)).append hrest
    · have hother : ∀ name params body, arg ≠ .func name params body :=
        fun name params body heq => hfunction ⟨name, params, body, heq⟩
      rw [resolveCallbacks_cons settings target hother, placedCallbacks_cons hother]
      refine (resolveCallbacks_settles hsettings rest htarget).map fun rest' hrest => ?_
      exact hrest.after arg.names
termination_by t => sizeOf t
decreasing_by all_goals (subst_vars; simp +arith)

/-- The functions of an iteration. -/
theorem resolveIteration_settles (hsettings : settings.Unreserved) : ∀ (args : List Expr),
    args.tail.all isFunction = true →
    Settles (resolveIteration settings args) (placedIterators args)
      fun out => Accounts (exprNames args) (exprNames out) (placedIterators args)
  | [], _ => by
    rw [resolveIteration, placedIterators]
    exact .pure (.refl _)
  | collection :: callbacks, hfunctions => by
    rw [resolveIteration, placedIterators]
    refine (resolveIterators_settles hsettings callbacks hfunctions).map fun out hout => ?_
    exact hout.after collection.names
termination_by t => sizeOf t
decreasing_by all_goals simp +arith

/-- Functions that collect into arrays of their own. -/
theorem resolveIterators_settles (hsettings : settings.Unreserved) : ∀ (callbacks : List Expr),
    callbacks.all isFunction = true →
    Settles (resolveIterators settings callbacks) (placedCallbacks callbacks)
      fun out => Accounts (exprNames callbacks) (exprNames out) (placedCallbacks callbacks)
  | [], _ => by
    rw [resolveIterators, placedCallbacks]
    exact .pure (.refl _)
  | callback :: rest, hfunctions => by
    rw [List.all_cons, Bool.and_eq_true] at hfunctions
    obtain ⟨hfunction, hrest⟩ := hfunctions
    obtain ⟨name, params, body, rfl⟩ := exists_of_isFunction hfunction
    rw [resolveIterators, placedCallbacks]
    rw [← List.nil_append (placed body ++ _)]
    refine (settles_fresh _).bind fun array harray => ?_
    obtain ⟨n, rfl⟩ := harray
    have hcollector := isCollector_children n
    refine (resolveAll_settles hsettings body hcollector).bind fun body' hbody => ?_
    refine (resolveIterators_settles hsettings rest hrest).map fun rest' hrest => ?_
    have hcollecting := hbody.of_count_eq
      fun name hname => count_collectingBody hcollector hname body'
    exact (hcollecting.after (name.toList ++ params)).append hrest
termination_by t => sizeOf t
decreasing_by all_goals (subst_vars; simp +arith)

/-- The clauses of a switch. -/
theorem resolveClauses_settles (hsettings : settings.Unreserved) : ∀ (clauses : List Clause)
    {target : String}, isCollector target = true →
    Settles (resolveClauses settings target clauses) (placedClauses clauses)
      fun out => Accounts (clauseNames clauses) (clauseNames out) (placedClauses clauses)
  | [], target, htarget => by
    rw [resolveClauses, placedClauses]
    exact .pure (.refl _)
  | .on label body :: rest, target, htarget => by
    rw [resolveClauses, placedClauses]
    refine (resolveAll_settles hsettings body htarget).bind fun body' hbody => ?_
    refine (resolveClauses_settles hsettings rest htarget).map fun rest' hrest => ?_
    exact (hbody.after label.names).append hrest
  | .otherwise body :: rest, target, htarget => by
    rw [resolveClauses, placedClauses]
    refine (resolveAll_settles hsettings body htarget).bind fun body' hbody => ?_
    refine (resolveClauses_settles hsettings rest htarget).map fun rest' hrest => ?_
    exact hbody.append hrest
termination_by t => sizeOf t
decreasing_by all_goals simp +arith

end

/-! ## Render functions -/

/-- Under settings without reserved names, a render function holds of the reserved names those that
are not called at one of the places. -/
theorem resolve_settled_iff (hsettings : settings.Unreserved) (program : Program) :
    (∃ result, resolve settings program = .ok result) ↔
      (∀ s ∈ placed program, fits s = true) ∧ Accounts (stmtNames program) [] (placed program) := by
  have hroot : isCollector "$children0" = true := isCollector_children 0
  have hall := resolveAll_settles hsettings program hroot
  constructor
  · rintro ⟨result, h⟩
    obtain ⟨body, m, hrun, rfl, hnames⟩ := resolve_eq_ok_iff.1 h
    obtain ⟨hfits, hbody⟩ := hall.sound hrun
    refine ⟨hfits, hbody.of_count_eq fun name hname => ?_⟩
    rw [← count_renderFunction hsettings hroot hname, count_eq_zero_of_unreserved hnames hname,
      List.count_nil]
  · rintro ⟨hfits, hnames⟩
    obtain ⟨body, m, hrun⟩ := hall.yields hfits 1
    refine ⟨_, resolve_eq_ok_iff.2 ⟨body, m, hrun, rfl, ?_⟩⟩
    refine unreserved_renderFunction hsettings hroot fun name hmem hname => ?_
    have hbody := (hall.sound hrun).2 name hname
    rw [hnames name hname, List.count_nil] at hbody
    exact List.not_mem_of_count_eq_zero (by omega) hmem

/-- A program has a render function exactly when every call of a reserved name at a place has the
arguments that the name takes, and each name that does not survive occurs as often as it is called
at a place, so nowhere else. -/
theorem resolve_succeeds_iff (program : Program) :
    (∃ result, resolve {} program = .ok result) ↔
      (∀ s ∈ placed program, fits s = true) ∧
        ∀ name ∈ Marker.resolved,
          (stmtNames program).count name = (placed program).countP (calls name) := by
  rw [resolve_settled_iff unreserved_default]
  simp only [Accounts, List.count_nil, Nat.zero_add]

/-- A function that is handed to a call is entered; the function of a declaration is not. -/
example :
    let output : Stmt := .expr (.call (.name Marker.text) [.name "item"])
    (∃ result, resolve {} [.expr (.call (.name "later") [.func none [] [output]])] = .ok result) ∧
      resolve {} [.func "later" [] [output]] = .error (.unresolved Marker.text) :=
  ⟨⟨_, rfl⟩, rfl⟩

end

end Espalier.Render
