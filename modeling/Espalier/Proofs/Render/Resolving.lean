import Espalier.Render.Resolve

/-!
# The arrays of a render function

Resolving names one array for every element and one for every function that collects children. The
names are numbered, so no two of them are equal (`stem_append_injective`), and they begin with a
dollar sign, so none of them is a reserved name (`unreserved_of_isCollector`). The module also holds
the identifiers of the pieces that render functions are made of, the lemma that takes a run of
`Resolving` apart (`run_bind_eq_ok`), and the resolving of a statement list as a recursion that
looks ahead after an element only (`resolveAll_cons`, `resolveAll_element_block`).
-/

namespace Espalier.Render

open Espalier.Script Espalier.Text

/-! ## Names -/

/-- The name belongs to an array of a render function. -/
def isCollector (name : String) : Bool :=
  "$children".toList.isPrefixOf name.toList || "$element".toList.isPrefixOf name.toList

/-- The name may stand in a finished program. -/
def Unreserved (name : String) : Prop :=
  name ∉ Marker.resolved

instance (name : String) : Decidable (Unreserved name) :=
  inferInstanceAs (Decidable (name ∉ Marker.resolved))

/-- The number behind a stem can be read back. -/
theorem stem_append_injective {stem : String} {m n : Nat}
    (h : stem ++ toString m = stem ++ toString n) : m = n := by
  have digits : m.repr.toList = n.repr.toList := by
    have chars := congrArg String.toList h
    rw [String.toList_append, String.toList_append] at chars
    exact List.append_cancel_left chars
  rw [Nat.toList_repr, Nat.toList_repr] at digits
  have values := congrArg (Nat.ofDigitChars 10 · 0) digits
  simpa using values

theorem isCollector_children (n : Nat) : isCollector ("$children" ++ toString n) = true := by
  rw [isCollector, String.toList_append, Bool.or_eq_true]
  exact .inl (List.isPrefixOf_iff_prefix.2 (List.prefix_append _ _))

theorem isCollector_element (n : Nat) : isCollector ("$element" ++ toString n) = true := by
  rw [isCollector, String.toList_append, Bool.or_eq_true]
  exact .inr (List.isPrefixOf_iff_prefix.2 (List.prefix_append _ _))

/-- The two families of arrays have no name in common. -/
theorem children_ne_element (m n : Nat) :
    "$children" ++ toString m ≠ "$element" ++ toString n := by
  intro h
  have chars := congrArg String.toList h
  rw [String.toList_append, String.toList_append] at chars
  have second := congrArg (·[1]?) chars
  simp at second

/-- A name of an array begins with a dollar sign. -/
theorem head_of_isCollector {name : String} (h : isCollector name = true) :
    name.toList.head? = some '$' := by
  rw [isCollector, Bool.or_eq_true] at h
  rcases h with h | h
  all_goals
    obtain ⟨rest, hrest⟩ := List.isPrefixOf_iff_prefix.1 h
    rw [← hrest]
    rfl

/-- The names of arrays are none of the reserved names. -/
theorem unreserved_of_isCollector {name : String} (h : isCollector name = true) :
    Unreserved name := by
  intro hmem
  have first : ∀ reserved ∈ Marker.resolved, reserved.toList.head? ≠ some '$' := by decide
  exact first name hmem (head_of_isCollector h)

/-! ## Identifiers of the pieces -/

theorem stmtNames_append (a b : List Stmt) : stmtNames (a ++ b) = stmtNames a ++ stmtNames b := by
  induction a with
  | nil => rfl
  | cons s a ih => rw [List.cons_append, stmtNames, stmtNames, ih, List.append_assoc]

theorem itemNames_map_value (es : List Expr) : itemNames (es.map .value) = exprNames es := by
  induction es with
  | nil => rfl
  | cons e es ih => rw [List.map_cons, itemNames, exprNames, ih]

/-- The identifiers of a dotted name are its parts. -/
theorem names_path (first : List Char) (fields : List (List Char)) :
    (path (first :: fields)).names = (first :: fields).map String.ofList := by
  have tail : ∀ (fields : List (List Char)) (owner : Expr),
      (fields.foldl (fun owner field => .dot owner (String.ofList field)) owner).names
        = owner.names ++ fields.map String.ofList := by
    intro fields
    induction fields with
    | nil => intro owner; simp
    | cons field fields ih => intro owner; simp [ih, Expr.names]
  simp [path, tail, Expr.names]

theorem names_declare (name : String) (value : Expr) :
    (declare name value).names = name :: value.names := by
  simp [declare, Stmt.names, bindingNames, Binding.names]

theorem names_push (array : String) (value : Expr) :
    (push array value).names = array :: "push" :: value.names := by
  simp [push, Stmt.names, Expr.names, exprNames]

theorem names_create (settings : Settings) (array : String) :
    (settings.create array).names
      = settings.factoryExpr.names ++ "apply" :: settings.receiver.names ++ [array] := by
  simp [Settings.create, Expr.names, exprNames]

theorem names_rawMarkup (settings : Settings) (value : Expr) :
    (settings.rawMarkup value).names
      = settings.factoryExpr.names ++ "dangerouslySetInnerHTML" :: "__html" :: value.names := by
  simp [Settings.rawMarkup, Expr.names, exprNames, propertyNames, Key.names]

theorem names_soleOrAll (array : String) :
    (soleOrAll array).names = [array, "length", array, array] := by
  simp [soleOrAll, Expr.names]

theorem names_renderFunction (settings : Settings) (root : String) (body : List Stmt) :
    stmtNames [settings.renderFunction root body] = settings.functionName :: "block" :: root
      :: (stmtNames body ++ [root, "length", root, root]) := by
  simp [Settings.renderFunction, stmtNames, Stmt.names, stmtNames_append, names_declare, Expr.names,
    itemNames, optionalNames, names_soleOrAll]

/-- The factory and the function's name hold no reserved name. -/
structure Settings.Unreserved (settings : Settings) : Prop where
  functionName : Render.Unreserved settings.functionName
  factory : ∀ part ∈ cutAt '.' settings.factory.toList, Render.Unreserved (String.ofList part)

theorem unreserved_default : ({} : Settings).Unreserved := ⟨by decide, by decide⟩

theorem Settings.Unreserved.factoryExpr {settings : Settings} (h : settings.Unreserved) :
    ∀ name ∈ settings.factoryExpr.names, Render.Unreserved name := by
  intro name hname
  unfold Settings.factoryExpr at hname
  have parts := h.factory
  generalize hcut : cutAt '.' settings.factory.toList = cut at hname parts
  cases cut with
  | nil => exact absurd hcut (cutAt_ne_nil _ _)
  | cons first fields =>
    rw [names_path] at hname
    obtain ⟨part, hpart, rfl⟩ := List.mem_map.1 hname
    exact parts part hpart

/-- The factory's owner is a dotted name made of its first parts, or no name at all. -/
theorem Settings.Unreserved.receiver {settings : Settings} (h : settings.Unreserved) :
    ∀ name ∈ settings.receiver.names, Render.Unreserved name := by
  intro name hname
  unfold Settings.receiver at hname
  simp only at hname
  split at hname
  case isTrue => cases hname
  case isFalse some_owner =>
    have parts : ∀ part ∈ (cutAt '.' settings.factory.toList).dropLast,
        Render.Unreserved (String.ofList part) :=
      fun part hpart => h.factory part (List.dropLast_subset _ hpart)
    generalize (cutAt '.' settings.factory.toList).dropLast = owner at *
    cases owner with
    | nil => exact absurd (by decide) some_owner
    | cons first fields =>
      rw [names_path] at hname
      obtain ⟨part, hpart, rfl⟩ := List.mem_map.1 hname
      exact parts part hpart

/-! ## Pieces without reserved names -/

theorem unreserved_push {array : String} {value : Expr} (harray : isCollector array = true)
    (hvalue : ∀ name ∈ value.names, Unreserved name) :
    ∀ name ∈ (push array value).names, Unreserved name := by
  rw [names_push]
  simp only [List.forall_mem_cons]
  exact ⟨unreserved_of_isCollector harray, by decide, hvalue⟩

theorem unreserved_rawMarkup {settings : Settings} {value : Expr} (h : settings.Unreserved)
    (hvalue : ∀ name ∈ value.names, Unreserved name) :
    ∀ name ∈ (settings.rawMarkup value).names, Unreserved name := by
  rw [names_rawMarkup]
  simp only [List.forall_mem_append, List.forall_mem_cons]
  exact ⟨h.factoryExpr, by decide, by decide, hvalue⟩

theorem unreserved_create {settings : Settings} {array : String} (h : settings.Unreserved)
    (harray : isCollector array = true) :
    ∀ name ∈ (settings.create array).names, Unreserved name := by
  rw [names_create]
  simp only [List.forall_mem_append, List.forall_mem_cons]
  exact ⟨⟨h.factoryExpr, by decide, h.receiver⟩, unreserved_of_isCollector harray,
    List.forall_mem_nil _⟩

/-- The block of an element holds no reserved name besides those of its arguments and children. -/
theorem unreserved_elementBlock {settings : Settings} {target array : String} {args : List Expr}
    {children : List Stmt} (h : settings.Unreserved) (htarget : isCollector target = true)
    (harray : isCollector array = true) (hargs : ∀ name ∈ exprNames args, Unreserved name)
    (hchildren : ∀ name ∈ stmtNames children, Unreserved name) :
    ∀ name ∈ (settings.elementBlock target array args children).names, Unreserved name := by
  rw [Settings.elementBlock, Stmt.names, List.cons_append, stmtNames, stmtNames_append,
    names_declare, Expr.names, itemNames_map_value]
  simp only [List.forall_mem_append, List.forall_mem_cons, stmtNames, List.append_nil]
  exact ⟨⟨unreserved_of_isCollector harray, hargs⟩, hchildren,
    unreserved_push htarget (unreserved_create h harray)⟩

theorem unreserved_renderFunction {settings : Settings} {root : String} {body : List Stmt}
    (h : settings.Unreserved) (hroot : isCollector root = true)
    (hbody : ∀ name ∈ stmtNames body, Unreserved name) :
    ∀ name ∈ stmtNames [settings.renderFunction root body], Unreserved name := by
  have root_ok := unreserved_of_isCollector hroot
  rw [names_renderFunction]
  simp only [List.forall_mem_append, List.forall_mem_cons]
  exact ⟨h.functionName, by decide, root_ok, hbody, root_ok, by decide, root_ok, root_ok,
    List.forall_mem_nil _⟩

/-! ## Runs -/

/-- A sequence of two steps succeeds when both do, the second from where the first stopped. -/
theorem run_bind_eq_ok {α β : Type} {x : Resolving α} {f : α → Resolving β} {n m : Nat} {b : β} :
    (x >>= f).run n = .ok (b, m) ↔
      ∃ a k, x.run n = .ok (a, k) ∧ (f a).run k = .ok (b, m) := by
  rw [StateT.run_bind]
  constructor
  · intro h
    cases hx : x.run n with
    | error fault => rw [hx] at h; cases h
    | ok r => rw [hx] at h; exact ⟨r.1, r.2, rfl, h⟩
  · rintro ⟨a, k, hx, hf⟩
    rw [hx]
    exact hf

@[simp] theorem run_pure_eq_ok {α : Type} {a b : α} {n m : Nat} :
    (pure a : Resolving α).run n = .ok (b, m) ↔ a = b ∧ n = m := by
  rw [StateT.run_pure]
  exact ⟨fun h => by cases h; exact ⟨rfl, rfl⟩, fun ⟨ha, hn⟩ => by subst ha hn; rfl⟩

/-- A step whose result is only wrapped. -/
theorem run_map_eq_ok {α β : Type} {x : Resolving α} {f : α → β} {n m : Nat} {b : β} :
    (x >>= fun a => pure (f a)).run n = .ok (b, m) ↔ ∃ a, x.run n = .ok (a, m) ∧ f a = b := by
  rw [run_bind_eq_ok]
  constructor
  · rintro ⟨a, k, hx, hf⟩
    obtain ⟨rfl, rfl⟩ := run_pure_eq_ok.1 hf
    exact ⟨a, hx, rfl⟩
  · rintro ⟨a, hx, rfl⟩
    exact ⟨a, m, hx, rfl⟩

@[simp] theorem run_fresh (stem : String) (n : Nat) :
    (fresh stem).run n = .ok (stem ++ toString n, n + 1) := rfl

/-- An element's array is named when its call has a type and properties. -/
theorem run_elementArray {args : List Expr} {n m : Nat} {array : String}
    (h : (elementArray args).run n = .ok (array, m)) :
    (∃ type props, args = [type, props]) ∧ array = "$element" ++ toString n ∧ m = n + 1 := by
  unfold elementArray at h
  split at h
  case isTrue two =>
    rw [run_fresh] at h
    cases h
    match args, two with
    | [type, props], _ => exact ⟨⟨type, props, rfl⟩, rfl, rfl⟩
  case isFalse => cases h

/-- The value of an output call is its only argument. -/
theorem run_onlyArgument {name : String} {args : List Expr} {n m : Nat} {value : Expr}
    (h : (onlyArgument name args).run n = .ok (value, m)) : args = [value] ∧ m = n := by
  unfold onlyArgument at h
  split at h
  case h_1 only =>
    obtain ⟨rfl, rfl⟩ := run_pure_eq_ok.1 h
    exact ⟨rfl, rfl⟩
  case h_2 => cases h

/-! ## Statement lists -/

section
variable (settings : Settings) (target : String)

theorem resolveAll_nil : resolveAll settings target [] = pure [] := by rw [resolveAll]

/-- An element and the block after it are resolved together. -/
theorem resolveAll_element_block (args : List Expr) (inner rest : List Stmt) :
    resolveAll settings target
        (.expr (.call (.name Marker.element) args) :: .block inner :: rest) = do
      let array ← elementArray args
      let children ← resolveAll settings array inner
      let rest ← resolveAll settings target rest
      return settings.elementBlock target array args children :: rest := by
  rw [resolveAll, elementCall?]
  rfl

/-- Any other statement is resolved by itself, also before a block. -/
theorem resolveAll_cons (s : Stmt) (rest : List Stmt)
    (h : elementCall? s = none ∨ ∀ inner after, rest ≠ .block inner :: after) :
    resolveAll settings target (s :: rest) = do
      let s ← resolveStmt settings target s
      let rest ← resolveAll settings target rest
      return s :: rest := by
  cases rest with
  | nil => simp only [resolveAll]
  | cons next after =>
    cases next with
    | block inner =>
      have not_element := h.resolve_right fun hne => hne inner after rfl
      have block_alone := resolveAll_cons (.block inner) after (.inl rfl)
      rw [resolveAll, not_element, block_alone, resolveStmt]
      simp only [bind_assoc, pure_bind]
    | _ => simp only [resolveAll]

/-! ## Reserved calls -/

theorem elementCall?_of_ne {id : String} (args : List Expr) (h : id ≠ Marker.element) :
    elementCall? (.expr (.call (.name id) args)) = none := if_neg h

theorem resolveStmt_element (args : List Expr) :
    resolveStmt settings target (.expr (.call (.name Marker.element) args)) = do
      let array ← elementArray args
      return settings.elementBlock target array args [] := by
  rw [resolveStmt, if_pos rfl]

theorem resolveStmt_text (args : List Expr) :
    resolveStmt settings target (.expr (.call (.name Marker.text) args)) = do
      let value ← onlyArgument Marker.text args
      return push target value := by
  rw [resolveStmt, if_neg (by decide), if_pos rfl]

theorem resolveStmt_raw (args : List Expr) :
    resolveStmt settings target (.expr (.call (.name Marker.raw) args)) = do
      let value ← onlyArgument Marker.raw args
      return push target (settings.rawMarkup value) := by
  rw [resolveStmt, if_neg (by decide), if_neg (by decide), if_pos rfl]

end

/-! ## Render functions -/

theorem leftover?_eq_none_iff {program : Program} :
    leftover? program = none ↔ ∀ name ∈ stmtNames program, Unreserved name := by
  simp [leftover?, Unreserved, List.find?_eq_none]

/-- A program has a render function when its statements can be resolved and no reserved name is left
over. -/
theorem resolve_eq_ok_iff {settings : Settings} {program result : Program} :
    resolve settings program = .ok result ↔
      ∃ body m, (resolveAll settings "$children0" program).run 1 = .ok (body, m) ∧
        result = [settings.renderFunction "$children0" body] ∧
        ∀ name ∈ stmtNames result, Unreserved name := by
  have hbuild : ∀ result m, (build settings program).run 0 = .ok (result, m) ↔
      ∃ body, (resolveAll settings "$children0" program).run 1 = .ok (body, m) ∧
        [settings.renderFunction "$children0" body] = result := by
    intro result m
    refine run_bind_eq_ok.trans ⟨?_, ?_⟩
    · rintro ⟨root, k, hroot, h⟩
      cases hroot
      obtain ⟨body, k, hbody, hresult⟩ := run_bind_eq_ok.1 h
      obtain ⟨rfl, rfl⟩ := run_pure_eq_ok.1 hresult
      exact ⟨body, hbody, rfl⟩
    · rintro ⟨body, hbody, rfl⟩
      exact ⟨"$children0", 1, rfl, run_bind_eq_ok.2 ⟨body, m, hbody, rfl⟩⟩
  unfold resolve
  constructor
  · intro h
    split at h
    case h_1 => cases h
    case h_2 result' m hrun =>
      obtain ⟨body, hbody, rfl⟩ := (hbuild _ _).1 hrun
      split at h
      case h_1 => cases h
      case h_2 hleft =>
        cases h
        exact ⟨body, m, hbody, rfl, leftover?_eq_none_iff.1 hleft⟩
  · rintro ⟨body, m, hbody, rfl, hnames⟩
    rw [(hbuild _ _).2 ⟨body, hbody, rfl⟩]
    simp only [leftover?_eq_none_iff.2 hnames]

end Espalier.Render
