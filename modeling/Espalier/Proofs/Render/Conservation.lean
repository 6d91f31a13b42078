import Espalier.Proofs.Render.Leaves

/-!
# Every reserved call is resolved once

Resolving loses no output, writes none twice and keeps their order. Main statement:
`resolve_conserves`, which compares the reserved calls of a program with the pieces of its render
function. The relation `Conserves` is the invariant of the induction over the program.

The functions along a chain of calls are resolved from the last to the first, against the order of
the text; since the relation is about places in the text, this makes no difference to it.
-/

namespace Espalier.Render

open Espalier.Script

/-- The piece of a render function that stands for a reserved call. -/
def Mark.piece (settings : Settings) : Mark → Piece
  | .element type props => .declaration [.value type, .value props]
  | .text value => .output value
  | .raw value => .output (settings.rawMarkup value)
  | .iteration collection => .iteration collection

/-- The leaves hold a piece for each of the reserved calls, in order, and as many creations as there
are elements. -/
structure Conserves (settings : Settings) (calls : List Mark) (leaves : List Stmt) : Prop where
  order : (pieces leaves).filter (!·.isCreation) = calls.map (·.piece settings)
  count : (pieces leaves).countP (·.isCreation) = calls.countP (·.isElement)

section
variable {settings : Settings}

theorem Conserves.of_pieces_eq_nil {leaves : List Stmt} (h : pieces leaves = []) :
    Conserves settings [] leaves := by
  constructor <;> rw [h] <;> rfl

theorem Conserves.append {a b : List Mark} {u v : List Stmt} (ha : Conserves settings a u)
    (hb : Conserves settings b v) : Conserves settings (a ++ b) (u ++ v) where
  order := by
    rw [pieces_append, List.filter_append, ha.order, hb.order, List.map_append]
  count := by
    rw [pieces_append, List.countP_append, ha.count, hb.count, List.countP_append]

/-- Foreign code after what is conserved. -/
theorem Conserves.append_nil {a : List Mark} {u v : List Stmt} (ha : Conserves settings a u)
    (hv : pieces v = []) : Conserves settings a (u ++ v) := by
  have h := ha.append (.of_pieces_eq_nil hv)
  rwa [List.append_nil] at h

/-- A leaf that is no piece before what is conserved. -/
theorem Conserves.cons_of_none {s : Stmt} {a : List Mark} {u : List Stmt} (hs : piece? s = none)
    (h : Conserves settings a u) : Conserves settings a (s :: u) where
  order := by rw [pieces_cons_of_none hs, h.order]
  count := by rw [pieces_cons_of_none hs, h.count]

/-! ## Leaves of the pieces -/

theorem leaves_declare (name : String) (value : Expr) :
    leaves (declare name value) = declare name value :: exprLeaves value := by
  simp [declare, leaves, bindingsLeaves, bindingLeaves]

theorem leaves_push (array : String) (value : Expr) :
    leaves (push array value) = push array value :: exprLeaves value := by
  simp [push, leaves, exprLeaves, argLeaves]

theorem exprLeaves_path (parts : List (List Char)) : exprLeaves (path parts) = [] := by
  have tail : ∀ (fields : List (List Char)) (owner : Expr), exprLeaves
      (fields.foldl (fun owner field => .dot owner (String.ofList field)) owner)
        = exprLeaves owner := by
    intro fields
    induction fields with
    | nil => intro owner; rfl
    | cons field fields ih => intro owner; rw [List.foldl_cons, ih, exprLeaves]
  cases parts with
  | nil => simp [path, exprLeaves]
  | cons first fields => rw [path, tail, exprLeaves]

theorem exprLeaves_rawMarkup (value : Expr) :
    exprLeaves (settings.rawMarkup value) = exprLeaves value := by
  simp [Settings.rawMarkup, Settings.factoryExpr, exprLeaves, argLeaves, propertyLeaves,
    exprLeaves_path]

theorem exprLeaves_create (array : String) : exprLeaves (settings.create array) = [] := by
  have receiver : exprLeaves settings.receiver = [] := by
    unfold Settings.receiver
    dsimp only
    split
    case isTrue => simp [exprLeaves]
    case isFalse => exact exprLeaves_path _
  simp [Settings.create, Settings.factoryExpr, exprLeaves, argLeaves, exprLeaves_path, receiver]

theorem stmtLeaves_append (a b : List Stmt) :
    stmtLeaves (a ++ b) = stmtLeaves a ++ stmtLeaves b := by
  induction a with
  | nil => rfl
  | cons s a ih => rw [List.cons_append, stmtLeaves, stmtLeaves, ih, List.append_assoc]

theorem itemLeaves_map_value (args : List Expr) :
    itemLeaves (args.map .value) = argLeaves args := by
  induction args with
  | nil => rfl
  | cons e es ih => rw [List.map_cons, itemLeaves, argLeaves, ih]

/-! ## Conserved calls -/

theorem piece?_push {array : String} (h : isCollector array = true) (value : Expr) :
    piece? (push array value) = some (pushedPiece value) := by
  simp [push, piece?, h]

theorem pushedPiece_create {array : String} (h : isCollector array = true) :
    pushedPiece (settings.create array) = .creation := by
  simp [pushedPiece, createsElement, Settings.create, h]

theorem pushedPiece_rawMarkup (value : Expr) :
    pushedPiece (settings.rawMarkup value) = .output (settings.rawMarkup value) := by
  have hcreates : createsElement (settings.rawMarkup value) = false := by
    unfold createsElement Settings.rawMarkup
    generalize settings.factoryExpr = factory
    split
    case h_1 heq => cases heq
    case h_2 => rfl
  have hcollection : collection? (settings.rawMarkup value) = none := by
    unfold collection? Settings.rawMarkup
    generalize settings.factoryExpr = factory
    split
    case h_1 heq => cases heq
    case h_2 => rfl
  simp only [pushedPiece, hcreates, hcollection, Bool.false_eq_true, if_false]

/-- The output of a foreign value. -/
theorem Conserves.text {target : String} {value : Expr} (htarget : isCollector target = true)
    (hvalue : Foreign value.names) :
    Conserves settings [.text value] (leaves (push target value)) := by
  have hpieces : pieces (leaves (push target value)) = [.output value] := by
    rw [leaves_push, pieces_cons_of_some (piece?_push htarget value),
      pieces_exprLeaves value hvalue, pushedPiece_of_foreign hvalue]
  constructor <;> rw [hpieces] <;> rfl

theorem Conserves.raw {target : String} {value : Expr} (htarget : isCollector target = true)
    (hvalue : Foreign value.names) :
    Conserves settings [.raw value] (leaves (push target (settings.rawMarkup value))) := by
  have hpieces : pieces (leaves (push target (settings.rawMarkup value)))
      = [.output (settings.rawMarkup value)] := by
    rw [leaves_push, pieces_cons_of_some (piece?_push htarget _), exprLeaves_rawMarkup,
      pieces_exprLeaves value hvalue, pushedPiece_rawMarkup]
  constructor <;> rw [hpieces] <;> rfl

/-- An element conserves what its children conserve. -/
theorem Conserves.element {target : String} {type props : Expr} {n : Nat} {calls : List Mark}
    {children : List Stmt} (htarget : isCollector target = true)
    (hargs : Foreign (exprNames [type, props]))
    (hchildren : Conserves settings calls (stmtLeaves children)) :
    Conserves settings (.element type props :: calls) (leaves
      (settings.elementBlock target ("$element" ++ toString n) [type, props] children)) := by
  have hdeclare : piece? (declare ("$element" ++ toString n) (.array ([type, props].map .value)))
      = some (.declaration [.value type, .value props]) := by
    rw [declare, piece?, if_pos (isElementArray_element n)]
    rfl
  have hpieces : pieces (leaves (settings.elementBlock target ("$element" ++ toString n)
      [type, props] children))
      = .declaration [.value type, .value props]
        :: (pieces (stmtLeaves children) ++ [Piece.creation]) := by
    rw [Settings.elementBlock, leaves, List.cons_append, stmtLeaves, leaves_declare,
      List.cons_append, pieces_cons_of_some hdeclare, exprLeaves, itemLeaves_map_value,
      pieces_append, pieces_argLeaves _ hargs, stmtLeaves_append, pieces_append, stmtLeaves,
      stmtLeaves, List.append_nil, leaves_push, pieces_cons_of_some (piece?_push htarget _),
      exprLeaves_create, pushedPiece_create (isCollector_element n)]
    rfl
  constructor
  · rw [hpieces, List.filter_cons_of_pos rfl, List.filter_append, hchildren.order]
    exact congrArg _ (List.append_nil _)
  · rw [hpieces, List.countP_cons_of_neg Bool.false_ne_true, List.countP_append, hchildren.count,
      List.countP_cons_of_pos (a := Mark.element type props) rfl]
    rfl

/-- The functions of an iteration collect into arrays of their own. -/
def Collect (callbacks : List Expr) : Prop :=
  ∃ (name : Option String) (params : List String) (n : Nat) (body : List Stmt) (rest : List Expr),
    callbacks = .func name params (collectingBody ("$children" ++ toString n) body) :: rest

theorem collection?_of_collect {callbacks : List Expr} (h : Collect callbacks) (collection : Expr) :
    collection? (.call (.name Marker.iterate) (collection :: callbacks)) = some collection := by
  obtain ⟨name, params, n, body, rest, rfl⟩ := h
  rw [collectingBody, declare, List.cons_append, collection?,
    if_pos ⟨rfl, isCollector_children n⟩]

/-- An iteration conserves what its functions conserve. -/
theorem Conserves.iteration {target : String} {collection : Expr} {callbacks : List Expr}
    {calls : List Mark} (htarget : isCollector target = true)
    (hcollection : Foreign collection.names) (hcollect : Collect callbacks)
    (hcallbacks : Conserves settings calls (argLeaves callbacks)) :
    Conserves settings (.iteration collection :: calls)
      (leaves (push target (.call (.name Marker.iterate) (collection :: callbacks)))) := by
  have hpieces : pieces (leaves (push target
      (.call (.name Marker.iterate) (collection :: callbacks))))
      = .iteration collection :: pieces (argLeaves callbacks) := by
    rw [leaves_push, pieces_cons_of_some (piece?_push htarget _), exprLeaves, exprLeaves, argLeaves,
      List.nil_append, pieces_append, pieces_exprLeaves collection hcollection, List.nil_append,
      pushedPiece, collection?_of_collect hcollect]
    rfl
  constructor
  · rw [hpieces, List.filter_cons_of_pos rfl, hcallbacks.order, List.map_cons]
    rfl
  · rw [hpieces, List.countP_cons_of_neg Bool.false_ne_true, hcallbacks.count,
      List.countP_cons_of_neg Bool.false_ne_true]

/-- The declaration and the result of a collecting function are no pieces. -/
theorem Conserves.collectingBody {n : Nat} {calls : List Mark} {body : List Stmt}
    (h : Conserves settings calls (stmtLeaves body)) : Conserves settings calls
      (stmtLeaves (Render.collectingBody ("$children" ++ toString n) body)) := by
  have hdeclare : piece? (declare ("$children" ++ toString n) (.array [])) = none := by
    rw [declare, piece?, isElementArray_children n]
    rfl
  rw [Render.collectingBody, List.cons_append, stmtLeaves, leaves_declare, exprLeaves, itemLeaves,
    stmtLeaves_append]
  exact (h.append_nil rfl).cons_of_none hdeclare

end

/-! ## Conserving runs -/

/-- An iteration has a collection and at least one function. -/
theorem exists_of_iterationShape {args : List Expr} (h : iterationShape args = true) :
    ∃ collection callbacks, args = collection :: callbacks ∧ callbacks ≠ [] := by
  match args, h with
  | collection :: callback :: rest, _ => exact ⟨collection, callback :: rest, rfl, nofun⟩

theorem resolveStmt_iterate (settings : Settings) (target : String) (args : List Expr) :
    resolveStmt settings target (.expr (.call (.name Marker.iterate) args)) =
      if iterationShape args then do
        let args ← resolveIteration settings args
        return push target (.call (.name Marker.iterate) args)
      else throw (.iterationArguments args.length) := by
  rw [resolveStmt, if_neg (by decide), if_neg (by decide), if_neg (by decide), if_pos rfl]

/-- A call of a name that is not reserved. -/
theorem resolveStmt_call (settings : Settings) (target : String) {id : String} (args : List Expr)
    (hresolved : id ∉ Marker.resolved) (hiterate : id ≠ Marker.iterate) :
    resolveStmt settings target (.expr (.call (.name id) args)) = do
      let args ← resolveCallbacks settings target args
      return .expr (.call (.name id) args) := by
  simp only [Marker.resolved, List.mem_cons, List.not_mem_nil, or_false, not_or] at hresolved
  obtain ⟨helement, htext, hraw⟩ := hresolved
  rw [resolveStmt, if_neg helement, if_neg htext, if_neg hraw, if_neg hiterate]

theorem resolveStmt_chain (settings : Settings) (target : String) {e : Expr}
    (h : ∀ id args, e ≠ .call (.name id) args) :
    resolveStmt settings target (.expr e) = do
      let e ← resolveChain settings target e
      return .expr e := by
  rw [resolveStmt]
  exact fun id args heq => h id args heq

theorem stmtMarks_chain {e : Expr} (h : ∀ id args, e ≠ .call (.name id) args) :
    stmtMarks (.expr e) = chainMarks e := by
  rw [stmtMarks]
  exact fun id args heq => h id args heq

theorem resolveChain_other (settings : Settings) (target : String) {e : Expr}
    (h : ∀ callee args, e ≠ .call callee args) : resolveChain settings target e = pure e := by
  rw [resolveChain]
  · exact fun owner field args heq => h _ args heq
  · exact fun callee args heq => h callee args heq

theorem chainMarks_other {e : Expr} (h : ∀ callee args, e ≠ .call callee args) :
    chainMarks e = [] := by
  rw [chainMarks]
  · exact fun owner field args heq => h _ args heq
  · exact fun callee args heq => h callee args heq

theorem resolveCallbacks_cons (settings : Settings) (target : String) {arg : Expr}
    (h : ∀ name params body, arg ≠ .func name params body) (rest : List Expr) :
    resolveCallbacks settings target (arg :: rest) = do
      let rest ← resolveCallbacks settings target rest
      return arg :: rest := by
  rw [resolveCallbacks, pure_bind]
  exact fun name params body heq => h name params body heq

theorem callbackMarks_cons {arg : Expr} (h : ∀ name params body, arg ≠ .func name params body)
    (rest : List Expr) : callbackMarks (arg :: rest) = callbackMarks rest := by
  rw [callbackMarks]
  exact fun name params body heq => h name params body heq

theorem elementCall?_eq_some {s : Stmt} {args : List Expr} (h : elementCall? s = some args) :
    s = .expr (.call (.name Marker.element) args) := by
  unfold elementCall? at h
  split at h
  case h_1 =>
    split at h
    case isTrue hid => cases h; rw [hid]
    case isFalse => cases h
  case h_2 => cases h

section
variable {settings : Settings}

/-- An element without children, or an output. -/
theorem resolveStmt_reserved_conserves {target id : String} {args : List Expr} {out : Stmt}
    {n m : Nat} (hid : id ∈ Marker.resolved) (htarget : isCollector target = true)
    (hnames : Foreign (exprNames args))
    (h : (resolveStmt settings target (.expr (.call (.name id) args))).run n = .ok (out, m)) :
    Conserves settings (outputMark? id args).toList (leaves out) := by
  simp only [Marker.resolved, List.mem_cons, List.not_mem_nil, or_false] at hid
  obtain rfl | rfl | rfl := hid
  · rw [resolveStmt_element] at h
    obtain ⟨array, k, harray, h⟩ := run_bind_eq_ok.1 h
    obtain ⟨⟨type, props, rfl⟩, rfl, -⟩ := run_elementArray harray
    obtain ⟨rfl, -⟩ := run_pure_eq_ok.1 h
    exact .element htarget hnames (.of_pieces_eq_nil rfl)
  · rw [resolveStmt_text] at h
    obtain ⟨value, hvalue, rfl⟩ := run_map_eq_ok.1 h
    obtain ⟨rfl, -⟩ := run_onlyArgument hvalue
    exact .text htarget (foreign_append.1 hnames).1
  · rw [resolveStmt_raw] at h
    obtain ⟨value, hvalue, rfl⟩ := run_map_eq_ok.1 h
    obtain ⟨rfl, -⟩ := run_onlyArgument hvalue
    exact .raw htarget (foreign_append.1 hnames).1

/-- A resolved chain is no addition to an array: it begins with the name that it began with. -/
theorem piece?_of_resolveChain {target : String} {e out : Expr} {n m : Nat}
    (hnames : Foreign e.names) (h : (resolveChain settings target e).run n = .ok (out, m)) :
    piece? (.expr out) = none := by
  unfold resolveChain at h
  split at h
  case h_1 owner field args =>
    obtain ⟨args', k, -, h⟩ := run_bind_eq_ok.1 h
    obtain ⟨owner', howner, rfl⟩ := run_map_eq_ok.1 h
    obtain ⟨hcallee, -⟩ := foreign_append.1 hnames
    unfold piece?
    split
    case h_1 heq => cases heq
    case h_2 array field value heq =>
      cases heq
      have hname : owner = .name array := by
        unfold resolveChain at howner
        split at howner
        case h_1 =>
          obtain ⟨_, _, -, howner⟩ := run_bind_eq_ok.1 howner
          obtain ⟨_, -, heq⟩ := run_map_eq_ok.1 howner
          cases heq
        case h_2 =>
          obtain ⟨_, -, heq⟩ := run_map_eq_ok.1 howner
          cases heq
        case h_3 => exact (run_pure_eq_ok.1 howner).1
      subst hname
      simp [hcallee array (List.mem_cons_self ..)]
    case h_3 => rfl
  case h_2 callee args hcallee =>
    obtain ⟨args', hargs, rfl⟩ := run_map_eq_ok.1 h
    unfold piece?
    split
    case h_1 heq => cases heq
    case h_2 array field value heq => cases heq; exact absurd rfl (hcallee _ _)
    case h_3 => rfl
  case h_3 =>
    obtain ⟨rfl, -⟩ := run_pure_eq_ok.1 h
    exact piece?_of_foreign hnames

mutual

/-- Statements. -/
theorem resolveAll_conserves : ∀ (stmts : List Stmt) {target : String} {out : List Stmt}
    {n m : Nat}, isCollector target = true → Foreign (stmtNames stmts) →
    (resolveAll settings target stmts).run n = .ok (out, m) →
    Conserves settings (marks stmts) (stmtLeaves out)
  | [], _, _, _, _, _, _, h => by
    rw [resolveAll_nil] at h
    obtain ⟨rfl, -⟩ := run_pure_eq_ok.1 h
    exact .of_pieces_eq_nil rfl
  | s :: rest, target, out, n, m, htarget, hnames, h => by
    obtain ⟨hs, hrest⟩ := foreign_append.1 hnames
    by_cases hplain : elementCall? s = none ∨ ∀ inner after, rest ≠ .block inner :: after
    · rw [resolveAll_cons settings target s rest hplain] at h
      obtain ⟨s', k, hstmt, h⟩ := run_bind_eq_ok.1 h
      obtain ⟨rest', htail, rfl⟩ := run_map_eq_ok.1 h
      exact (resolveStmt_conserves s htarget hs hstmt).append
        (resolveAll_conserves rest htarget hrest htail)
    · simp only [not_or, Classical.not_forall, Classical.not_not] at hplain
      obtain ⟨hsome, inner, after, rfl⟩ := hplain
      obtain ⟨args, hargs⟩ := Option.ne_none_iff_exists'.1 hsome
      obtain rfl := elementCall?_eq_some hargs
      rw [resolveAll_element_block] at h
      obtain ⟨array, k, harray, h⟩ := run_bind_eq_ok.1 h
      obtain ⟨children, k', hchildren, h⟩ := run_bind_eq_ok.1 h
      obtain ⟨after', hafter, rfl⟩ := run_map_eq_ok.1 h
      obtain ⟨⟨type, props, rfl⟩, rfl, rfl⟩ := run_elementArray harray
      obtain ⟨hinner, hafter_names⟩ := foreign_append.1 hrest
      obtain ⟨-, hprops⟩ := foreign_cons.1 hs
      have hblock := resolveAll_conserves inner (isCollector_element n) hinner hchildren
      exact (Conserves.element htarget hprops hblock).append
        (resolveAll_conserves after htarget hafter_names hafter)
termination_by t => sizeOf t
decreasing_by all_goals (subst_vars; simp +arith)

/-- A statement. -/
theorem resolveStmt_conserves : ∀ (s : Stmt) {target : String} {out : Stmt} {n m : Nat},
    isCollector target = true → Foreign s.names →
    (resolveStmt settings target s).run n = .ok (out, m) →
    Conserves settings (stmtMarks s) (leaves out)
  | .block body, _, _, _, _, htarget, hnames, h => by
    rw [resolveStmt] at h
    obtain ⟨body', hbody, rfl⟩ := run_map_eq_ok.1 h
    exact resolveAll_conserves body htarget hnames hbody
  | .ifThen test yes, _, _, _, _, htarget, hnames, h => by
    rw [resolveStmt] at h
    obtain ⟨yes', hyes, rfl⟩ := run_map_eq_ok.1 h
    obtain ⟨htest, hbody⟩ := foreign_append.1 hnames
    exact (Conserves.of_pieces_eq_nil (pieces_exprLeaves test htest)).append
      (resolveStmt_conserves yes htarget hbody hyes)
  | .ifElse test yes no, _, _, _, _, htarget, hnames, h => by
    rw [resolveStmt] at h
    obtain ⟨yes', k, hyes, h⟩ := run_bind_eq_ok.1 h
    obtain ⟨no', hno, rfl⟩ := run_map_eq_ok.1 h
    obtain ⟨hboth, hno_names⟩ := foreign_append.1 hnames
    obtain ⟨htest, hyes_names⟩ := foreign_append.1 hboth
    exact ((Conserves.of_pieces_eq_nil (pieces_exprLeaves test htest)).append
      (resolveStmt_conserves yes htarget hyes_names hyes)).append
      (resolveStmt_conserves no htarget hno_names hno)
  | .loop start test next body, _, _, _, _, htarget, hnames, h => by
    rw [resolveStmt] at h
    obtain ⟨body', hbody, rfl⟩ := run_map_eq_ok.1 h
    obtain ⟨hhead, hbody_names⟩ := foreign_append.1 hnames
    obtain ⟨hfirst, hnext⟩ := foreign_append.1 hhead
    obtain ⟨hstart, htest⟩ := foreign_append.1 hfirst
    have hbare := pieces_append_eq_nil (pieces_append_eq_nil (pieces_startLeaves start hstart)
      (pieces_optionalLeaves test htest)) (pieces_optionalLeaves next hnext)
    exact (Conserves.of_pieces_eq_nil hbare).append
      (resolveStmt_conserves body htarget hbody_names hbody)
  | .loopIn item collection body, _, _, _, _, htarget, hnames, h => by
    rw [resolveStmt] at h
    obtain ⟨body', hbody, rfl⟩ := run_map_eq_ok.1 h
    obtain ⟨hhead, hbody_names⟩ := foreign_append.1 hnames
    obtain ⟨hitem, hcollection⟩ := foreign_append.1 hhead
    have hbare := pieces_append_eq_nil (pieces_exprLeaves item hitem)
      (pieces_exprLeaves collection hcollection)
    exact (Conserves.of_pieces_eq_nil hbare).append
      (resolveStmt_conserves body htarget hbody_names hbody)
  | .loopVarIn item collection body, _, _, _, _, htarget, hnames, h => by
    rw [resolveStmt] at h
    obtain ⟨body', hbody, rfl⟩ := run_map_eq_ok.1 h
    obtain ⟨hhead, hbody_names⟩ := foreign_append.1 hnames
    obtain ⟨hitem, hcollection⟩ := foreign_append.1 hhead
    have hvars : Foreign (Stmt.vars [item]).names := foreign_append.2 ⟨hitem, nofun⟩
    have hbare := pieces_append_eq_nil (a := .vars [item] :: bindingLeaves item)
      ((pieces_cons_of_none (piece?_of_foreign hvars) _).trans (pieces_bindingLeaves item hitem))
      (pieces_exprLeaves collection hcollection)
    exact (Conserves.of_pieces_eq_nil hbare).append
      (resolveStmt_conserves body htarget hbody_names hbody)
  | .while test body, _, _, _, _, htarget, hnames, h
  | .withScope test body, _, _, _, _, htarget, hnames, h => by
    rw [resolveStmt] at h
    obtain ⟨body', hbody, rfl⟩ := run_map_eq_ok.1 h
    obtain ⟨htest, hbody_names⟩ := foreign_append.1 hnames
    exact (Conserves.of_pieces_eq_nil (pieces_exprLeaves test htest)).append
      (resolveStmt_conserves body htarget hbody_names hbody)
  | .doWhile body test, _, _, _, _, htarget, hnames, h => by
    rw [resolveStmt] at h
    obtain ⟨body', hbody, rfl⟩ := run_map_eq_ok.1 h
    obtain ⟨htest, hbody_names⟩ := foreign_append.1 hnames
    exact (resolveStmt_conserves body htarget hbody_names hbody).append_nil
      (pieces_exprLeaves test htest)
  | .label _ body, _, _, _, _, htarget, hnames, h => by
    rw [resolveStmt] at h
    obtain ⟨body', hbody, rfl⟩ := run_map_eq_ok.1 h
    rw [stmtMarks, leaves]
    exact resolveStmt_conserves body htarget (foreign_cons.1 hnames).2 hbody
  | .switch subject clauses, _, _, _, _, htarget, hnames, h => by
    rw [resolveStmt] at h
    obtain ⟨clauses', hclauses, rfl⟩ := run_map_eq_ok.1 h
    obtain ⟨hsubject, hclause_names⟩ := foreign_append.1 hnames
    exact (Conserves.of_pieces_eq_nil (pieces_exprLeaves subject hsubject)).append
      (resolveClauses_conserves clauses htarget hclause_names hclauses)
  | .tryCatch body param handler, _, _, _, _, htarget, hnames, h => by
    rw [resolveStmt] at h
    obtain ⟨body', k, hbody, h⟩ := run_bind_eq_ok.1 h
    obtain ⟨handler', hhandler, rfl⟩ := run_map_eq_ok.1 h
    obtain ⟨hbody_names, hcatch⟩ := foreign_append.1 hnames
    exact (resolveAll_conserves body htarget hbody_names hbody).append
      (resolveAll_conserves handler htarget (foreign_cons.1 hcatch).2 hhandler)
  | .tryFinally body finalizer, _, _, _, _, htarget, hnames, h => by
    rw [resolveStmt] at h
    obtain ⟨body', k, hbody, h⟩ := run_bind_eq_ok.1 h
    obtain ⟨finalizer', hfinalizer, rfl⟩ := run_map_eq_ok.1 h
    obtain ⟨hbody_names, hfinalizer_names⟩ := foreign_append.1 hnames
    exact (resolveAll_conserves body htarget hbody_names hbody).append
      (resolveAll_conserves finalizer htarget hfinalizer_names hfinalizer)
  | .tryCatchFinally body param handler finalizer, _, _, _, _, htarget, hnames, h => by
    rw [resolveStmt] at h
    obtain ⟨body', k, hbody, h⟩ := run_bind_eq_ok.1 h
    obtain ⟨handler', k', hhandler, h⟩ := run_bind_eq_ok.1 h
    obtain ⟨finalizer', hfinalizer, rfl⟩ := run_map_eq_ok.1 h
    obtain ⟨hboth, hfinalizer_names⟩ := foreign_append.1 hnames
    obtain ⟨hbody_names, hcatch⟩ := foreign_append.1 hboth
    exact ((resolveAll_conserves body htarget hbody_names hbody).append
      (resolveAll_conserves handler htarget (foreign_cons.1 hcatch).2 hhandler)).append
      (resolveAll_conserves finalizer htarget hfinalizer_names hfinalizer)
  | .vars _, _, _, _, _, _, hnames, h | .empty, _, _, _, _, _, hnames, h
  | .continue _, _, _, _, _, _, hnames, h | .break _, _, _, _, _, _, hnames, h
  | .ret _, _, _, _, _, _, hnames, h | .throw _, _, _, _, _, _, hnames, h
  | .debugger, _, _, _, _, _, hnames, h | .func .., _, _, _, _, _, hnames, h => by
    simp only [resolveStmt, run_pure_eq_ok] at h
    rw [← h.1, stmtMarks]
    · exact .of_pieces_eq_nil (pieces_leaves _ hnames)
    all_goals exact nofun
  | .expr e, target, out, n, m, htarget, hnames, h => by
    by_cases hcall : ∃ id args, e = .call (.name id) args
    · obtain ⟨id, args, rfl⟩ := hcall
      have hargs : Foreign (exprNames args) := (foreign_cons.1 hnames).2
      rw [stmtMarks]
      split
      case isTrue hid => exact resolveStmt_reserved_conserves hid htarget hargs h
      case isFalse hid =>
        split
        case isTrue hiterate =>
          subst hiterate
          rw [resolveStmt_iterate] at h
          split at h
          case isFalse => cases h
          case isTrue hshape =>
            obtain ⟨collection, callbacks, rfl, hne⟩ := exists_of_iterationShape hshape
            rw [resolveIteration] at h
            obtain ⟨args', hargs', rfl⟩ := run_map_eq_ok.1 h
            obtain ⟨callbacks', hcallbacks, rfl⟩ := run_map_eq_ok.1 hargs'
            obtain ⟨hcollection, hrest⟩ := foreign_append.1 hargs
            obtain ⟨hconserved, hcollect⟩ := resolveIterators_conserves callbacks hrest hcallbacks
            exact hconserved.iteration htarget hcollection (hcollect hne)
        case isFalse hiterate =>
          rw [resolveStmt_call settings target args hid hiterate] at h
          obtain ⟨args', hargs', rfl⟩ := run_map_eq_ok.1 h
          rw [leaves, exprLeaves, exprLeaves]
          exact (resolveCallbacks_conserves args htarget hargs hargs').cons_of_none rfl
    · simp only [not_exists] at hcall
      rw [resolveStmt_chain settings target hcall] at h
      obtain ⟨e', hchain, rfl⟩ := run_map_eq_ok.1 h
      rw [stmtMarks_chain hcall, leaves]
      exact (resolveChain_conserves e htarget hnames hchain).cons_of_none
        (piece?_of_resolveChain hnames hchain)
termination_by t => sizeOf t
decreasing_by all_goals (subst_vars; simp +arith)

/-- A chain of calls. -/
theorem resolveChain_conserves : ∀ (e : Expr) {target : String} {out : Expr} {n m : Nat},
    isCollector target = true → Foreign e.names →
    (resolveChain settings target e).run n = .ok (out, m) →
    Conserves settings (chainMarks e) (exprLeaves out)
  | e, target, out, n, m, htarget, hnames, h => by
    by_cases hcall : ∃ callee args, e = .call callee args
    · obtain ⟨callee, args, rfl⟩ := hcall
      obtain ⟨hcallee, hargs_names⟩ := foreign_append.1 hnames
      by_cases hdot : ∃ owner field, callee = .dot owner field
      · obtain ⟨owner, field, rfl⟩ := hdot
        rw [resolveChain] at h
        obtain ⟨args', k, hargs, h⟩ := run_bind_eq_ok.1 h
        obtain ⟨owner', howner, rfl⟩ := run_map_eq_ok.1 h
        exact (resolveChain_conserves owner htarget (foreign_append.1 hcallee).1 howner).append
          (resolveCallbacks_conserves args htarget hargs_names hargs)
      · simp only [not_exists] at hdot
        rw [resolveChain] at h
        obtain ⟨args', hargs, rfl⟩ := run_map_eq_ok.1 h
        rw [chainMarks]
        · exact (Conserves.of_pieces_eq_nil (pieces_exprLeaves callee hcallee)).append
            (resolveCallbacks_conserves args htarget hargs_names hargs)
        · exact fun owner field heq => hdot owner field heq
        · exact fun owner field heq => hdot owner field heq
    · simp only [not_exists] at hcall
      rw [resolveChain_other settings target hcall] at h
      obtain ⟨rfl, -⟩ := run_pure_eq_ok.1 h
      rw [chainMarks_other hcall]
      exact .of_pieces_eq_nil (pieces_exprLeaves e hnames)
termination_by t => sizeOf t
decreasing_by all_goals (subst_vars; simp +arith)

/-- The functions among arguments. -/
theorem resolveCallbacks_conserves : ∀ (args : List Expr) {target : String} {out : List Expr}
    {n m : Nat}, isCollector target = true → Foreign (exprNames args) →
    (resolveCallbacks settings target args).run n = .ok (out, m) →
    Conserves settings (callbackMarks args) (argLeaves out)
  | [], _, _, _, _, _, _, h => by
    rw [resolveCallbacks] at h
    obtain ⟨rfl, -⟩ := run_pure_eq_ok.1 h
    exact .of_pieces_eq_nil rfl
  | arg :: rest, target, out, n, m, htarget, hnames, h => by
    obtain ⟨harg, hrest_names⟩ := foreign_append.1 hnames
    by_cases hfunc : ∃ name params body, arg = .func name params body
    · obtain ⟨name, params, body, rfl⟩ := hfunc
      rw [resolveCallbacks] at h
      obtain ⟨body', k, hbody, h⟩ := run_bind_eq_ok.1 h
      obtain ⟨rest', hrest, rfl⟩ := run_map_eq_ok.1 h
      exact (resolveAll_conserves body htarget (foreign_append.1 harg).2 hbody).append
        (resolveCallbacks_conserves rest htarget hrest_names hrest)
    · simp only [not_exists] at hfunc
      rw [resolveCallbacks_cons settings target hfunc] at h
      obtain ⟨rest', hrest, rfl⟩ := run_map_eq_ok.1 h
      rw [callbackMarks_cons hfunc]
      exact (Conserves.of_pieces_eq_nil (pieces_exprLeaves arg harg)).append
        (resolveCallbacks_conserves rest htarget hrest_names hrest)
termination_by t => sizeOf t
decreasing_by all_goals (subst_vars; simp +arith)

/-- The functions of an iteration. -/
theorem resolveIterators_conserves : ∀ (callbacks : List Expr) {out : List Expr} {n m : Nat},
    Foreign (exprNames callbacks) →
    (resolveIterators settings callbacks).run n = .ok (out, m) →
    Conserves settings (callbackMarks callbacks) (argLeaves out) ∧ (callbacks ≠ [] → Collect out)
  | [], _, _, _, _, h => by
    rw [resolveIterators] at h
    obtain ⟨rfl, -⟩ := run_pure_eq_ok.1 h
    exact ⟨.of_pieces_eq_nil rfl, fun h => absurd rfl h⟩
  | arg :: rest, out, n, m, hnames, h => by
    by_cases hfunc : ∃ name params body, arg = .func name params body
    · obtain ⟨name, params, body, rfl⟩ := hfunc
      obtain ⟨harg, hrest_names⟩ := foreign_append.1 hnames
      rw [resolveIterators] at h
      obtain ⟨array, k, harray, h⟩ := run_bind_eq_ok.1 h
      obtain ⟨body', k', hbody, h⟩ := run_bind_eq_ok.1 h
      obtain ⟨rest', hrest, rfl⟩ := run_map_eq_ok.1 h
      cases harray
      have hinner :=
        resolveAll_conserves body (isCollector_children n) (foreign_append.1 harg).2 hbody
      exact ⟨hinner.collectingBody.append (resolveIterators_conserves rest hrest_names hrest).1,
        fun _ => ⟨name, params, n, body', rest', rfl⟩⟩
    · simp only [not_exists] at hfunc
      rw [resolveIterators] at h
      · cases h
      · exact fun name params body heq => hfunc name params body heq
termination_by t => sizeOf t
decreasing_by all_goals (subst_vars; simp +arith)

/-- The clauses of a switch. -/
theorem resolveClauses_conserves : ∀ (clauses : List Clause) {target : String} {out : List Clause}
    {n m : Nat}, isCollector target = true → Foreign (clauseNames clauses) →
    (resolveClauses settings target clauses).run n = .ok (out, m) →
    Conserves settings (clauseMarks clauses) (clauseLeaves out)
  | [], _, _, _, _, _, _, h => by
    rw [resolveClauses] at h
    obtain ⟨rfl, -⟩ := run_pure_eq_ok.1 h
    exact .of_pieces_eq_nil rfl
  | .on label body :: rest, target, out, n, m, htarget, hnames, h => by
    rw [resolveClauses] at h
    obtain ⟨body', k, hbody, h⟩ := run_bind_eq_ok.1 h
    obtain ⟨rest', hrest, rfl⟩ := run_map_eq_ok.1 h
    obtain ⟨hfirst, hrest_names⟩ := foreign_append.1 hnames
    obtain ⟨hlabel, hbody_names⟩ := foreign_append.1 hfirst
    exact ((Conserves.of_pieces_eq_nil (pieces_exprLeaves label hlabel)).append
      (resolveAll_conserves body htarget hbody_names hbody)).append
      (resolveClauses_conserves rest htarget hrest_names hrest)
  | .otherwise body :: rest, target, out, n, m, htarget, hnames, h => by
    rw [resolveClauses] at h
    obtain ⟨body', k, hbody, h⟩ := run_bind_eq_ok.1 h
    obtain ⟨rest', hrest, rfl⟩ := run_map_eq_ok.1 h
    obtain ⟨hbody_names, hrest_names⟩ := foreign_append.1 hnames
    exact (resolveAll_conserves body htarget hbody_names hbody).append
      (resolveClauses_conserves rest htarget hrest_names hrest)
termination_by t => sizeOf t
decreasing_by all_goals (subst_vars; simp +arith)

end

end

/-- A render function holds a piece for every reserved call of its program, in the order of the
text, and as many creations as the program has elements. -/
theorem resolve_conserves {settings : Settings} {program result : Program}
    (hnames : ∀ name ∈ stmtNames program, isCollector name = false)
    (h : resolve settings program = .ok result) :
    (pieces (stmtLeaves result)).filter (!·.isCreation) = (marks program).map (·.piece settings) ∧
    (pieces (stmtLeaves result)).countP (·.isCreation)
      = (marks program).countP (·.isElement) := by
  obtain ⟨body, m, hbody, rfl, -⟩ := resolve_eq_ok_iff.1 h
  have hroot : isCollector "$children0" = true := isCollector_children 0
  have hdeclare : piece? (declare "$children0" (.array [])) = none := rfl
  have hresult : pieces (leaves (.ret (some (soleOrAll "$children0")))) = [] := by
    simp [leaves, optionalLeaves, soleOrAll, exprLeaves, pieces]
  have hconserved : Conserves settings (marks program)
      (stmtLeaves [settings.renderFunction "$children0" body]) := by
    rw [stmtLeaves, stmtLeaves, List.append_nil, Settings.renderFunction, leaves, List.cons_append,
      stmtLeaves, leaves_declare, exprLeaves, itemLeaves, stmtLeaves_append, stmtLeaves, stmtLeaves,
      List.append_nil]
    have hall := resolveAll_conserves program hroot hnames hbody
    exact (hall.append_nil hresult).cons_of_none hdeclare
  exact ⟨hconserved.order, hconserved.count⟩

/-- The first of two functions along a chain is resolved last, and its output comes first. -/
theorem resolve_conserves_chain :
    let inner := fun name value => Expr.func none []
      [.expr (.call (.name name) [.name value])]
    let first := Expr.call (.dot (.name "a") "b") [inner Marker.text "x"]
    let program := [Stmt.expr (.call (.dot first "c") [inner Marker.raw "y"])]
    ∃ result, resolve {} program = .ok result ∧
      (pieces (stmtLeaves result)).filter (!·.isCreation)
        = [.output (.name "x"), .output (Settings.rawMarkup {} (.name "y"))] := by
  intro inner first program
  have hnames : ∀ name ∈ stmtNames program, isCollector name = false := by decide
  refine ⟨_, rfl, ?_⟩
  exact (resolve_conserves hnames rfl).1

end Espalier.Render
