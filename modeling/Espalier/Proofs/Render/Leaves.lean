import Espalier.Proofs.Render.Resolving

/-!
# Reserved calls and the statements made of them

Two views of programs that say what resolving works on. `marks` lists the reserved calls of a
program in the order of the text, at the places where they are resolved. `stmtLeaves` lists every
declaration and every expression statement of a program, wherever it stands, and `pieces` picks
those among them that declare the array of an element or add to an array.

Code whose names are foreign to the arrays holds no piece (`pieces_stmtLeaves`).
-/

namespace Espalier.Render

open Espalier.Script

/-! ## Reserved calls -/

/-- A reserved call in statement position. -/
inductive Mark where
  | element (type props : Expr)
  | text (value : Expr)
  | raw (value : Expr)
  | iteration (collection : Expr)

def Mark.isElement : Mark → Bool
  | .element _ _ => true
  | _ => false

/-- The element or the output that a call stands for. -/
def outputMark? (id : String) : List Expr → Option Mark
  | [type, props] => if id = Marker.element then some (.element type props) else none
  | [value] =>
    if id = Marker.text then some (.text value)
    else if id = Marker.raw then some (.raw value)
    else none
  | _ => none

mutual

/-- The reserved calls of statements, in the order of the text. -/
def marks : List Stmt → List Mark
  | [] => []
  | s :: rest => stmtMarks s ++ marks rest

/-- The reserved calls of a statement. -/
def stmtMarks : Stmt → List Mark
  | .expr (.call (.name id) args) =>
    if id ∈ Marker.resolved then (outputMark? id args).toList
    else if id = Marker.iterate then iterationMarks args
    else callbackMarks args
  | .expr e => chainMarks e
  | .block body => marks body
  | .ifThen _ yes => stmtMarks yes
  | .ifElse _ yes no => stmtMarks yes ++ stmtMarks no
  | .loop _ _ _ body => stmtMarks body
  | .loopIn _ _ body => stmtMarks body
  | .loopVarIn _ _ body => stmtMarks body
  | .while _ body => stmtMarks body
  | .doWhile body _ => stmtMarks body
  | .withScope _ body => stmtMarks body
  | .label _ body => stmtMarks body
  | .switch _ clauses => clauseMarks clauses
  | .tryCatch body _ handler => marks body ++ marks handler
  | .tryFinally body finalizer => marks body ++ marks finalizer
  | .tryCatchFinally body _ handler finalizer => marks body ++ marks handler ++ marks finalizer
  | _ => []

/-- The reserved calls in the functions along a chain such as `a.b(f).c(g)`. -/
def chainMarks : Expr → List Mark
  | .call (.dot owner _) args => chainMarks owner ++ callbackMarks args
  | .call _ args => callbackMarks args
  | _ => []

/-- The reserved calls in the functions among arguments. -/
def callbackMarks : List Expr → List Mark
  | [] => []
  | .func _ _ body :: rest => marks body ++ callbackMarks rest
  | _ :: rest => callbackMarks rest

/-- An iteration and the reserved calls in its functions. -/
def iterationMarks : List Expr → List Mark
  | [] => []
  | collection :: callbacks => .iteration collection :: callbackMarks callbacks

/-- The reserved calls in the clauses of a switch. -/
def clauseMarks : List Clause → List Mark
  | [] => []
  | .on _ body :: rest => marks body ++ clauseMarks rest
  | .otherwise body :: rest => marks body ++ clauseMarks rest

end

/-! ## Leaves -/

mutual

/-- The declarations and expression statements inside the functions of an expression. -/
def exprLeaves : Expr → List Stmt
  | .name _ | .this | .null | .bool _ | .number _ | .string _ | .regex _ => []
  | .array items => itemLeaves items
  | .object properties => propertyLeaves properties
  | .group inner => exprLeaves inner
  | .func _ _ body => stmtLeaves body
  | .dot owner _ => exprLeaves owner
  | .index owner position => exprLeaves owner ++ exprLeaves position
  | .call callee args => exprLeaves callee ++ argLeaves args
  | .new callee args => exprLeaves callee ++ argLeaves args
  | .newBare callee => exprLeaves callee
  | .unary _ operand => exprLeaves operand
  | .step operand _ => exprLeaves operand
  | .binary _ left right => exprLeaves left ++ exprLeaves right
  | .assign _ left right => exprLeaves left ++ exprLeaves right
  | .cond test yes no => exprLeaves test ++ exprLeaves yes ++ exprLeaves no
  | .comma left right => exprLeaves left ++ exprLeaves right

/-- The leaves inside several expressions. -/
def argLeaves : List Expr → List Stmt
  | [] => []
  | e :: es => exprLeaves e ++ argLeaves es

/-- The leaves inside an expression that may be missing. -/
def optionalLeaves : Option Expr → List Stmt
  | none => []
  | some e => exprLeaves e

/-- The leaves inside an array's items. -/
def itemLeaves : List Item → List Stmt
  | [] => []
  | .elision _ :: items => itemLeaves items
  | .value e :: items => exprLeaves e ++ itemLeaves items

/-- The leaves inside an object's properties. -/
def propertyLeaves : List Property → List Stmt
  | [] => []
  | .field _ value :: properties => exprLeaves value ++ propertyLeaves properties
  | .getter _ body :: properties => stmtLeaves body ++ propertyLeaves properties
  | .setter _ _ body :: properties => stmtLeaves body ++ propertyLeaves properties

/-- The leaves inside the value of a declared variable. -/
def bindingLeaves : Binding → List Stmt
  | .bare _ => []
  | .init _ value => exprLeaves value

/-- The leaves inside a declaration. -/
def bindingsLeaves : List Binding → List Stmt
  | [] => []
  | b :: bs => bindingLeaves b ++ bindingsLeaves bs

/-- The leaves of what stands before the first semicolon of a loop head. -/
def startLeaves : LoopStart → List Stmt
  | .nothing => []
  | .vars bindings => .vars bindings :: bindingsLeaves bindings
  | .expr e => exprLeaves e

/-- The declarations and expression statements of a statement. -/
def leaves : Stmt → List Stmt
  | .block body => stmtLeaves body
  | .vars bindings => .vars bindings :: bindingsLeaves bindings
  | .empty | .continue _ | .break _ | .debugger => []
  | .expr e => .expr e :: exprLeaves e
  | .ifThen test yes => exprLeaves test ++ leaves yes
  | .ifElse test yes no => exprLeaves test ++ leaves yes ++ leaves no
  | .loop start test next body =>
    startLeaves start ++ optionalLeaves test ++ optionalLeaves next ++ leaves body
  | .loopIn item collection body => exprLeaves item ++ exprLeaves collection ++ leaves body
  | .loopVarIn item collection body =>
    .vars [item] :: bindingLeaves item ++ exprLeaves collection ++ leaves body
  | .while test body => exprLeaves test ++ leaves body
  | .doWhile body test => leaves body ++ exprLeaves test
  | .ret value => optionalLeaves value
  | .withScope scope body => exprLeaves scope ++ leaves body
  | .label _ body => leaves body
  | .switch subject clauses => exprLeaves subject ++ clauseLeaves clauses
  | .throw value => exprLeaves value
  | .tryCatch body _ handler => stmtLeaves body ++ stmtLeaves handler
  | .tryFinally body finalizer => stmtLeaves body ++ stmtLeaves finalizer
  | .tryCatchFinally body _ handler finalizer =>
    stmtLeaves body ++ stmtLeaves handler ++ stmtLeaves finalizer
  | .func _ _ body => stmtLeaves body

/-- The declarations and expression statements of several statements, in the order of the text. -/
def stmtLeaves : List Stmt → List Stmt
  | [] => []
  | s :: ss => leaves s ++ stmtLeaves ss

/-- The leaves in the clauses of a switch. -/
def clauseLeaves : List Clause → List Stmt
  | [] => []
  | .on label body :: clauses => exprLeaves label ++ stmtLeaves body ++ clauseLeaves clauses
  | .otherwise body :: clauses => stmtLeaves body ++ clauseLeaves clauses

end

/-! ## Pieces -/

/-- A statement of a render function about one of its arrays. -/
inductive Piece where
  /-- The declaration of an element's array, with what the array holds at first. -/
  | declaration (items : List Item)
  /-- An element made of an array is added to an array. -/
  | creation
  /-- The result of an iteration is added to an array. -/
  | iteration (collection : Expr)
  /-- Any other value is added to an array. -/
  | output (value : Expr)

def Piece.isCreation : Piece → Bool
  | .creation => true
  | _ => false

/-- The value is an element made of an array. -/
def createsElement : Expr → Bool
  | .call (.dot _ field) [_, .name array] => field == "apply" && isCollector array
  | _ => false

/-- The collection of an iteration whose first function collects into an array. -/
def collection? : Expr → Option Expr
  | .call (.name id) (collection :: .func _ _ (.vars [.init array _] :: _) :: _) =>
    if id = Marker.iterate ∧ isCollector array then some collection else none
  | _ => none

/-- What the addition of a value is. -/
def pushedPiece (value : Expr) : Piece :=
  if createsElement value then .creation
  else
    match collection? value with
    | some collection => .iteration collection
    | none => .output value

/-- The name belongs to the array of an element. -/
def isElementArray (name : String) : Bool :=
  "$element".toList.isPrefixOf name.toList

theorem isElementArray_element (n : Nat) : isElementArray ("$element" ++ toString n) = true := by
  rw [isElementArray, String.toList_append]
  exact List.isPrefixOf_iff_prefix.2 (List.prefix_append _ _)

theorem isElementArray_children (n : Nat) :
    isElementArray ("$children" ++ toString n) = false := by
  rw [isElementArray, String.toList_append]
  rfl

theorem isElementArray_eq_false {name : String} (h : isCollector name = false) :
    isElementArray name = false := by
  rw [isCollector, Bool.or_eq_false_iff] at h
  exact h.2

/-- The piece that a leaf is. -/
def piece? : Stmt → Option Piece
  | .vars [.init array (.array items)] =>
    if isElementArray array then some (.declaration items) else none
  | .expr (.call (.dot (.name array) field) [value]) =>
    if isCollector array ∧ field = "push" then some (pushedPiece value) else none
  | _ => none

/-- The pieces among leaves. -/
def pieces (leaves : List Stmt) : List Piece :=
  leaves.filterMap piece?

theorem pieces_append (a b : List Stmt) : pieces (a ++ b) = pieces a ++ pieces b :=
  List.filterMap_append

theorem pieces_append_eq_nil {a b : List Stmt} (ha : pieces a = []) (hb : pieces b = []) :
    pieces (a ++ b) = [] := by
  rw [pieces_append, ha, hb, List.append_nil]

theorem pieces_cons_of_none {s : Stmt} (h : piece? s = none) (rest : List Stmt) :
    pieces (s :: rest) = pieces rest :=
  List.filterMap_cons_none h

theorem pieces_cons_of_some {s : Stmt} {piece : Piece} (h : piece? s = some piece)
    (rest : List Stmt) : pieces (s :: rest) = piece :: pieces rest :=
  List.filterMap_cons_some h

/-! ## Foreign code -/

/-- None of the names belongs to an array of a render function. -/
def Foreign (names : List String) : Prop :=
  ∀ name ∈ names, isCollector name = false

theorem foreign_append {a b : List String} : Foreign (a ++ b) ↔ Foreign a ∧ Foreign b :=
  List.forall_mem_append

theorem foreign_cons {name : String} {names : List String} :
    Foreign (name :: names) ↔ isCollector name = false ∧ Foreign names :=
  List.forall_mem_cons

/-- A foreign value is an output as it is. -/
theorem pushedPiece_of_foreign {value : Expr} (h : Foreign value.names) :
    pushedPiece value = .output value := by
  have hcreates : createsElement value = false := by
    unfold createsElement
    split
    case h_1 owner field receiver array =>
      simp only [Expr.names, exprNames, foreign_append, foreign_cons] at h
      simp [h.2.2.1]
    case h_2 => rfl
  have hcollection : collection? value = none := by
    unfold collection?
    split
    case h_1 id collection name params array start body rest =>
      simp only [Expr.names, exprNames, stmtNames, Stmt.names, bindingNames, Binding.names,
        foreign_append, foreign_cons] at h
      simp [h.2.2.1]
    case h_2 => rfl
  simp only [pushedPiece, hcreates, hcollection, Bool.false_eq_true, if_false]

theorem piece?_of_foreign {s : Stmt} (h : Foreign s.names) : piece? s = none := by
  unfold piece?
  split
  case h_1 array items =>
    simp only [Stmt.names, bindingNames, Binding.names, foreign_append, foreign_cons] at h
    simp [isElementArray_eq_false h.1.1]
  case h_2 array field value =>
    simp only [Stmt.names, Expr.names, foreign_append, foreign_cons] at h
    simp [h.1.1.1]
  case h_3 => rfl

mutual

theorem pieces_exprLeaves : ∀ e : Expr, Foreign e.names → pieces (exprLeaves e) = []
  | .name _, _ | .this, _ | .null, _ | .bool _, _ | .number _, _ | .string _, _ | .regex _, _ => by
    simp [exprLeaves, pieces]
  | .array items, h => by
    rw [exprLeaves, pieces_itemLeaves items h]
  | .object properties, h => by
    rw [exprLeaves, pieces_propertyLeaves properties h]
  | .group inner, h => by
    rw [exprLeaves, pieces_exprLeaves inner h]
  | .func _ _ body, h => by
    rw [exprLeaves, pieces_stmtLeaves body (foreign_append.1 h).2]
  | .dot owner _, h => by
    rw [exprLeaves, pieces_exprLeaves owner (foreign_append.1 h).1]
  | .newBare callee, h => by
    rw [exprLeaves, pieces_exprLeaves callee h]
  | .unary _ operand, h | .step operand _, h => by
    rw [exprLeaves, pieces_exprLeaves operand h]
  | .call callee args, h | .new callee args, h => by
    obtain ⟨hcallee, hargs⟩ := foreign_append.1 h
    rw [exprLeaves]
    exact pieces_append_eq_nil (pieces_exprLeaves callee hcallee) (pieces_argLeaves args hargs)
  | .index left right, h | .binary _ left right, h | .assign _ left right, h
  | .comma left right, h => by
    obtain ⟨hleft, hright⟩ := foreign_append.1 h
    rw [exprLeaves]
    exact pieces_append_eq_nil (pieces_exprLeaves left hleft) (pieces_exprLeaves right hright)
  | .cond test yes no, h => by
    obtain ⟨hboth, hno⟩ := foreign_append.1 h
    obtain ⟨htest, hyes⟩ := foreign_append.1 hboth
    rw [exprLeaves]
    exact pieces_append_eq_nil (pieces_append_eq_nil (pieces_exprLeaves test htest)
      (pieces_exprLeaves yes hyes)) (pieces_exprLeaves no hno)

theorem pieces_argLeaves : ∀ args : List Expr, Foreign (exprNames args) →
    pieces (argLeaves args) = []
  | [], _ => rfl
  | e :: es, h => by
    obtain ⟨he, hes⟩ := foreign_append.1 h
    rw [argLeaves]
    exact pieces_append_eq_nil (pieces_exprLeaves e he) (pieces_argLeaves es hes)

theorem pieces_optionalLeaves : ∀ e : Option Expr, Foreign (optionalNames e) →
    pieces (optionalLeaves e) = []
  | none, _ => rfl
  | some e, h => by
    rw [optionalLeaves, pieces_exprLeaves e h]

theorem pieces_itemLeaves : ∀ items : List Item, Foreign (itemNames items) →
    pieces (itemLeaves items) = []
  | [], _ => rfl
  | .elision _ :: items, h => by
    rw [itemLeaves, pieces_itemLeaves items h]
  | .value e :: items, h => by
    obtain ⟨he, hitems⟩ := foreign_append.1 h
    rw [itemLeaves]
    exact pieces_append_eq_nil (pieces_exprLeaves e he) (pieces_itemLeaves items hitems)

theorem pieces_propertyLeaves : ∀ properties : List Property, Foreign (propertyNames properties) →
    pieces (propertyLeaves properties) = []
  | [], _ => rfl
  | .field _ value :: properties, h => by
    obtain ⟨hfirst, hrest⟩ := foreign_append.1 h
    rw [propertyLeaves]
    exact pieces_append_eq_nil (pieces_exprLeaves value (foreign_append.1 hfirst).2)
      (pieces_propertyLeaves properties hrest)
  | .getter _ body :: properties, h => by
    obtain ⟨hfirst, hrest⟩ := foreign_append.1 h
    rw [propertyLeaves]
    exact pieces_append_eq_nil (pieces_stmtLeaves body (foreign_append.1 hfirst).2)
      (pieces_propertyLeaves properties hrest)
  | .setter _ _ body :: properties, h => by
    obtain ⟨hfirst, hrest⟩ := foreign_append.1 h
    obtain ⟨-, hbody⟩ := foreign_cons.1 (foreign_append.1 hfirst).2
    rw [propertyLeaves]
    exact pieces_append_eq_nil (pieces_stmtLeaves body hbody)
      (pieces_propertyLeaves properties hrest)

theorem pieces_bindingLeaves : ∀ b : Binding, Foreign b.names → pieces (bindingLeaves b) = []
  | .bare _, _ => rfl
  | .init _ value, h => by
    rw [bindingLeaves, pieces_exprLeaves value (foreign_cons.1 h).2]

theorem pieces_bindingsLeaves : ∀ bs : List Binding, Foreign (bindingNames bs) →
    pieces (bindingsLeaves bs) = []
  | [], _ => rfl
  | b :: bs, h => by
    obtain ⟨hb, hbs⟩ := foreign_append.1 h
    rw [bindingsLeaves]
    exact pieces_append_eq_nil (pieces_bindingLeaves b hb) (pieces_bindingsLeaves bs hbs)

theorem pieces_startLeaves : ∀ start : LoopStart, Foreign start.names →
    pieces (startLeaves start) = []
  | .nothing, _ => rfl
  | .vars bindings, h => by
    have hvars : piece? (.vars bindings) = none := piece?_of_foreign h
    rw [startLeaves, pieces_cons_of_none hvars, pieces_bindingsLeaves bindings h]
  | .expr e, h => by
    rw [startLeaves, pieces_exprLeaves e h]

theorem pieces_leaves : ∀ s : Stmt, Foreign s.names → pieces (leaves s) = []
  | .block body, h => by
    rw [leaves, pieces_stmtLeaves body h]
  | .vars bindings, h => by
    rw [leaves, pieces_cons_of_none (piece?_of_foreign h), pieces_bindingsLeaves bindings h]
  | .empty, _ | .continue _, _ | .break _, _ | .debugger, _ => by
    simp [leaves, pieces]
  | .expr e, h => by
    rw [leaves, pieces_cons_of_none (piece?_of_foreign h), pieces_exprLeaves e h]
  | .ifThen test body, h | .while test body, h | .withScope test body, h => by
    obtain ⟨htest, hbody⟩ := foreign_append.1 h
    rw [leaves]
    exact pieces_append_eq_nil (pieces_exprLeaves test htest) (pieces_leaves body hbody)
  | .doWhile body test, h => by
    obtain ⟨htest, hbody⟩ := foreign_append.1 h
    rw [leaves]
    exact pieces_append_eq_nil (pieces_leaves body hbody) (pieces_exprLeaves test htest)
  | .ifElse test yes no, h => by
    obtain ⟨hboth, hno⟩ := foreign_append.1 h
    obtain ⟨htest, hyes⟩ := foreign_append.1 hboth
    rw [leaves]
    exact pieces_append_eq_nil (pieces_append_eq_nil (pieces_exprLeaves test htest)
      (pieces_leaves yes hyes)) (pieces_leaves no hno)
  | .loop start test next body, h => by
    obtain ⟨hhead, hbody⟩ := foreign_append.1 h
    obtain ⟨hfirst, hnext⟩ := foreign_append.1 hhead
    obtain ⟨hstart, htest⟩ := foreign_append.1 hfirst
    rw [leaves]
    exact pieces_append_eq_nil (pieces_append_eq_nil (pieces_append_eq_nil
      (pieces_startLeaves start hstart) (pieces_optionalLeaves test htest))
      (pieces_optionalLeaves next hnext)) (pieces_leaves body hbody)
  | .loopIn item collection body, h => by
    obtain ⟨hhead, hbody⟩ := foreign_append.1 h
    obtain ⟨hitem, hcollection⟩ := foreign_append.1 hhead
    rw [leaves]
    exact pieces_append_eq_nil (pieces_append_eq_nil (pieces_exprLeaves item hitem)
      (pieces_exprLeaves collection hcollection)) (pieces_leaves body hbody)
  | .loopVarIn item collection body, h => by
    obtain ⟨hhead, hbody⟩ := foreign_append.1 h
    obtain ⟨hitem, hcollection⟩ := foreign_append.1 hhead
    have hvars : Foreign (Stmt.vars [item]).names := foreign_append.2 ⟨hitem, nofun⟩
    rw [leaves, List.cons_append, List.cons_append, pieces_cons_of_none (piece?_of_foreign hvars)]
    exact pieces_append_eq_nil (pieces_append_eq_nil (pieces_bindingLeaves item hitem)
      (pieces_exprLeaves collection hcollection)) (pieces_leaves body hbody)
  | .ret value, h => by
    rw [leaves, pieces_optionalLeaves value h]
  | .label _ body, h => by
    rw [leaves, pieces_leaves body (foreign_cons.1 h).2]
  | .switch subject clauses, h => by
    obtain ⟨hsubject, hclauses⟩ := foreign_append.1 h
    rw [leaves]
    exact pieces_append_eq_nil (pieces_exprLeaves subject hsubject)
      (pieces_clauseLeaves clauses hclauses)
  | .throw value, h => by
    rw [leaves, pieces_exprLeaves value h]
  | .tryCatch body _ handler, h => by
    obtain ⟨hbody, hhandler⟩ := foreign_append.1 h
    rw [leaves]
    exact pieces_append_eq_nil (pieces_stmtLeaves body hbody) (pieces_stmtLeaves handler
      (foreign_cons.1 hhandler).2)
  | .tryFinally body finalizer, h => by
    obtain ⟨hbody, hfinalizer⟩ := foreign_append.1 h
    rw [leaves]
    exact pieces_append_eq_nil (pieces_stmtLeaves body hbody)
      (pieces_stmtLeaves finalizer hfinalizer)
  | .tryCatchFinally body _ handler finalizer, h => by
    obtain ⟨hboth, hfinalizer⟩ := foreign_append.1 h
    obtain ⟨hbody, hhandler⟩ := foreign_append.1 hboth
    rw [leaves]
    exact pieces_append_eq_nil (pieces_append_eq_nil (pieces_stmtLeaves body hbody)
      (pieces_stmtLeaves handler (foreign_cons.1 hhandler).2))
      (pieces_stmtLeaves finalizer hfinalizer)
  | .func _ _ body, h => by
    rw [leaves, pieces_stmtLeaves body (foreign_append.1 h).2]

theorem pieces_stmtLeaves : ∀ stmts : List Stmt, Foreign (stmtNames stmts) →
    pieces (stmtLeaves stmts) = []
  | [], _ => rfl
  | s :: ss, h => by
    obtain ⟨hs, hss⟩ := foreign_append.1 h
    rw [stmtLeaves]
    exact pieces_append_eq_nil (pieces_leaves s hs) (pieces_stmtLeaves ss hss)

theorem pieces_clauseLeaves : ∀ clauses : List Clause, Foreign (clauseNames clauses) →
    pieces (clauseLeaves clauses) = []
  | [], _ => rfl
  | .on label body :: clauses, h => by
    obtain ⟨hfirst, hrest⟩ := foreign_append.1 h
    obtain ⟨hlabel, hbody⟩ := foreign_append.1 hfirst
    rw [clauseLeaves]
    exact pieces_append_eq_nil (pieces_append_eq_nil (pieces_exprLeaves label hlabel)
      (pieces_stmtLeaves body hbody)) (pieces_clauseLeaves clauses hrest)
  | .otherwise body :: clauses, h => by
    obtain ⟨hbody, hrest⟩ := foreign_append.1 h
    rw [clauseLeaves]
    exact pieces_append_eq_nil (pieces_stmtLeaves body hbody) (pieces_clauseLeaves clauses hrest)

end

end Espalier.Render
