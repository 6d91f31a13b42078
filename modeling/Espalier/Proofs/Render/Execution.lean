import Espalier.Render.Build
import Espalier.Script.Names

/-!
# Running render functions

The statement forms that a render function is made of, as a store transformer: a declaration of an
array, an addition to an array, a block, and the conditional that is returned. Only the forms that
render functions bring along are looked into. The value of any other expression is left to a
`Reading`, which may depend on the store, but only through the variables that the expression names.
-/

namespace Espalier.Render

open Espalier.Script

/-- Values at run time, over the values `V` of the expressions that are not looked into. -/
inductive Val (V : Type) where
  | given (value : V)
  /-- A string literal, by its spelling. -/
  | literal (text : String)
  | object (fields : List (String × Val V))
  | array (items : List (Val V))
  /-- What the factory makes of its arguments: a type, properties and children. -/
  | element (parts : List (Val V))

/-- The arrays that variables hold. -/
abbrev Store (V : Type) := String → Option (List (Val V))

/-- The store with another array in a variable. -/
def Store.set {V : Type} (σ : Store V) (x : String) (items : List (Val V)) : Store V :=
  fun y => if y = x then some items else σ y

@[simp] theorem Store.set_self {V : Type} (σ : Store V) (x : String) (items : List (Val V)) :
    σ.set x items x = some items := if_pos rfl

theorem Store.set_of_ne {V : Type} {σ : Store V} {x y : String} {items : List (Val V)}
    (h : y ≠ x) : σ.set x items y = σ y := if_neg h

/-- What expressions stand for. Two stores that agree on the names of an expression give it the same
value. -/
structure Reading (V : Type) where
  value : Store V → Expr → V
  value_congr : ∀ {e : Expr} {σ τ : Store V}, (∀ x ∈ e.names, σ x = τ x) → value σ e = value τ e

/-- Both expressions are the same dotted name, or both are `null`. -/
def samePath : Expr → Expr → Bool
  | .name a, .name b => a == b
  | .dot owner field, .dot owner' field' => samePath owner owner' && field == field'
  | .null, .null => true
  | _, _ => false

/-- The array that the factory is applied to, with its owner as the receiver. -/
def appliedTo? (settings : Settings) : Expr → List Expr → Option String
  | .dot f "apply", [owner, .name x] =>
    if samePath f settings.factoryExpr && samePath owner settings.receiver then some x else none
  | _, _ => none

section
variable {V : Type} (settings : Settings) (ρ : Reading V)

mutual

/-- The value of an expression. String literals, objects of plain fields and calls of the factory
are looked into. -/
def evaluate (σ : Store V) (e : Expr) : Val V :=
  match e with
  | .string text => .literal text
  | .object properties =>
    match evaluateFields σ properties with
    | some fields => .object fields
    | none => .given (ρ.value σ (.object properties))
  | .call callee args =>
    if samePath callee settings.factoryExpr then .element (evaluateAll σ args)
    else
      match (appliedTo? settings callee args).bind σ with
      | some items => .element items
      | none => .given (ρ.value σ (.call callee args))
  | other => .given (ρ.value σ other)

/-- The values of several expressions. -/
def evaluateAll (σ : Store V) (es : List Expr) : List (Val V) :=
  match es with
  | [] => []
  | e :: es => evaluate σ e :: evaluateAll σ es

/-- The values of an object's fields; an object with a getter or a setter has none. -/
def evaluateFields (σ : Store V) (properties : List Property) : Option (List (String × Val V)) :=
  match properties with
  | [] => some []
  | .field key value :: properties =>
    (evaluateFields σ properties).map ((key.text, evaluate σ value) :: ·)
  | _ :: _ => none

end

/-- The values of an array's items; there is none where an item is missing. -/
def evaluateItems (σ : Store V) : List Item → Option (List (Val V))
  | [] => some []
  | .value e :: items => (evaluateItems σ items).map (evaluate settings ρ σ e :: ·)
  | .elision _ :: _ => none

mutual

/-- The store after a statement; there is none for a form that render functions do not bring
along. -/
def run (σ : Store V) (s : Stmt) : Option (Store V) :=
  match s with
  | .vars [.init x (.array items)] => (evaluateItems settings ρ σ items).map (σ.set x)
  | .expr (.call (.dot (.name x) "push") [value]) =>
    (σ x).map fun items => σ.set x (items ++ [evaluate settings ρ σ value])
  | .block body => runAll σ body
  | _ => none

/-- The store after several statements. -/
def runAll (σ : Store V) (stmts : List Stmt) : Option (Store V) :=
  match stmts with
  | [] => some σ
  | s :: rest => (run σ s).bind (runAll · rest)

end

/-- The value of the returned conditional `a.length === 1 ? b[0] : c`. -/
def selected (σ : Store V) : Expr → Option (Val V)
  | .cond (.binary .eqStrict (.dot (.name a) "length") (.number "1"))
      (.index (.name b) (.number "0")) (.name c) => do
    if (← σ a).length = 1 then (← σ b).head? else return .array (← σ c)
  | _ => none

/-- What a function body returns. -/
def invoke (σ : Store V) : List Stmt → Option (Val V)
  | [] => none
  | .ret (some e) :: _ => selected σ e
  | s :: rest => (run settings ρ σ s).bind (invoke · rest)

end

/-! ## Calls of the factory -/

theorem eq_of_samePath : ∀ {a b : Expr}, samePath a b = true → a = b
  | .name a, .name b, h => by rw [eq_of_beq h]
  | .dot _ _, .dot _ _, h => by
    rw [samePath, Bool.and_eq_true] at h
    rw [eq_of_samePath h.1, eq_of_beq h.2]
  | .null, .null, _ => rfl

theorem samePath_path (first : List Char) (fields : List (List Char)) :
    samePath (path (first :: fields)) (path (first :: fields)) = true := by
  have tail : ∀ (fields : List (List Char)) (owner : Expr), samePath owner owner = true →
      samePath (fields.foldl (fun owner field => .dot owner (String.ofList field)) owner)
        (fields.foldl (fun owner field => .dot owner (String.ofList field)) owner) = true := by
    intro fields
    induction fields with
    | nil => exact fun _ h => h
    | cons field fields ih => exact fun owner h => ih _ (by simp [samePath, h])
  exact tail fields _ (by simp [samePath])

theorem samePath_factoryExpr (settings : Settings) :
    samePath settings.factoryExpr settings.factoryExpr = true := by
  unfold Settings.factoryExpr
  cases hcut : Text.cutAt '.' settings.factory.toList with
  | nil => exact absurd hcut (Text.cutAt_ne_nil _ _)
  | cons first fields => exact samePath_path first fields

theorem samePath_receiver (settings : Settings) :
    samePath settings.receiver settings.receiver = true := by
  unfold Settings.receiver
  simp only
  split
  case isTrue => rfl
  case isFalse some_owner =>
    cases howner : (Text.cutAt '.' settings.factory.toList).dropLast with
    | nil => exact absurd (by rw [howner]; decide) some_owner
    | cons first fields => exact samePath_path first fields

/-- Applying the factory is no call of the factory itself. -/
theorem samePath_dot_self (e : Expr) (field : String) : samePath (.dot e field) e = false := by
  rw [Bool.eq_false_iff]
  intro h
  have size := congrArg sizeOf (eq_of_samePath h)
  simp only [Expr.dot.sizeOf_spec] at size
  omega

section
variable {V : Type} {settings : Settings} {ρ : Reading V} {σ τ : Store V}

/-- The factory applied to an array makes an element of what the array holds. -/
theorem evaluate_create {x : String} {items : List (Val V)} (hx : σ x = some items) :
    evaluate settings ρ σ (settings.create x) = .element items := by
  rw [Settings.create, evaluate, samePath_dot_self]
  simp [appliedTo?, samePath_factoryExpr, samePath_receiver, hx]

/-- Raw markup is a `span` that holds the markup. -/
theorem evaluate_rawMarkup (value : Expr) :
    evaluate settings ρ σ (settings.rawMarkup value) = .element [.literal "\x22span\x22",
      .object [("dangerouslySetInnerHTML",
        .object [("__html", evaluate settings ρ σ value)])]] := by
  rw [Settings.rawMarkup, evaluate, if_pos (samePath_factoryExpr settings)]
  simp [evaluateAll, evaluate, evaluateFields, Key.text]

/-! ## The store is read through names -/

theorem appliedTo?_mem_names {callee : Expr} {args : List Expr} {x : String}
    (h : appliedTo? settings callee args = some x) : x ∈ (Expr.call callee args).names := by
  unfold appliedTo? at h
  split at h
  case h_1 =>
    split at h
    case isTrue => cases h; simp [Expr.names, exprNames]
    case isFalse => cases h
  case h_2 => cases h

mutual

theorem evaluate_congr : ∀ {e : Expr}, (∀ x ∈ e.names, σ x = τ x) →
    evaluate settings ρ σ e = evaluate settings ρ τ e
  | .string _, _ => by rw [evaluate, evaluate]
  | .object properties, h => by
    rw [evaluate, evaluate, evaluateFields_congr h, ρ.value_congr h]
  | .call callee args, h => by
    have hargs : evaluateAll settings ρ σ args = evaluateAll settings ρ τ args :=
      evaluateAll_congr fun x hx => h x (by rw [Expr.names]; exact List.mem_append_right _ hx)
    have happlied : (appliedTo? settings callee args).bind σ =
        (appliedTo? settings callee args).bind τ := by
      cases hx : appliedTo? settings callee args with
      | none => rfl
      | some x => exact h x (appliedTo?_mem_names hx)
    rw [evaluate, evaluate, hargs, happlied, ρ.value_congr h]
  | .name _, h | .this, h | .null, h | .bool _, h | .number _, h | .regex _, h | .array _, h
  | .group _, h | .func .., h | .dot .., h | .index .., h | .new .., h | .newBare _, h
  | .unary .., h | .step .., h | .binary .., h | .assign .., h | .cond .., h | .comma .., h => by
    simp only [evaluate, ρ.value_congr h]

theorem evaluateAll_congr : ∀ {es : List Expr}, (∀ x ∈ exprNames es, σ x = τ x) →
    evaluateAll settings ρ σ es = evaluateAll settings ρ τ es
  | [], _ => by rw [evaluateAll, evaluateAll]
  | e :: es, h => by
    rw [exprNames] at h
    rw [evaluateAll, evaluateAll, evaluate_congr fun x hx => h x (List.mem_append_left _ hx),
      evaluateAll_congr fun x hx => h x (List.mem_append_right _ hx)]

theorem evaluateFields_congr : ∀ {properties : List Property},
    (∀ x ∈ propertyNames properties, σ x = τ x) →
    evaluateFields settings ρ σ properties = evaluateFields settings ρ τ properties
  | [], _ => by rw [evaluateFields, evaluateFields]
  | .field key value :: properties, h => by
    simp only [propertyNames, List.mem_append] at h
    rw [evaluateFields, evaluateFields, evaluate_congr fun x hx => h x (.inl (.inr hx)),
      evaluateFields_congr fun x hx => h x (.inr hx)]
  | .getter .. :: _, _ | .setter .. :: _, _ => by simp only [evaluateFields]

end

/-! ## Sequences of statements -/

theorem runAll_append {a b : List Stmt} {υ : Store V} (ha : runAll settings ρ σ a = some τ)
    (hb : runAll settings ρ τ b = some υ) : runAll settings ρ σ (a ++ b) = some υ := by
  induction a generalizing σ with
  | nil => cases ha; exact hb
  | cons s a ih =>
    rw [runAll] at ha
    obtain ⟨υ', hs, hrest⟩ := Option.bind_eq_some_iff.1 ha
    rw [List.cons_append, runAll, hs]
    exact ih hrest

theorem runAll_singleton (s : Stmt) : runAll settings ρ σ [s] = run settings ρ σ s := by
  rw [runAll]
  cases run settings ρ σ s with
  | none => rfl
  | some υ => rw [Option.bind_some, runAll]

/-- Statements that run to their end leave the result to what follows them. -/
theorem invoke_append {a b : List Stmt} (ha : runAll settings ρ σ a = some τ) :
    invoke settings ρ σ (a ++ b) = invoke settings ρ τ b := by
  induction a generalizing σ with
  | nil => cases ha; rfl
  | cons s a ih =>
    rw [runAll] at ha
    obtain ⟨υ, hs, hrest⟩ := Option.bind_eq_some_iff.1 ha
    rw [List.cons_append, invoke, hs]
    · exact ih hrest
    · rintro e rfl
      simp [run] at hs

theorem run_declare (x : String) (es : List Expr) :
    run settings ρ σ (declare x (.array (es.map .value)))
      = some (σ.set x (es.map (evaluate settings ρ σ))) := by
  have items : ∀ es : List Expr, evaluateItems settings ρ σ (es.map .value)
      = some (es.map (evaluate settings ρ σ)) := by
    intro es
    induction es with
    | nil => rfl
    | cons e es ih => rw [List.map_cons, evaluateItems, ih]; rfl
  rw [declare, run, items]
  rfl

theorem run_push {x : String} {value : Expr} {items : List (Val V)} (hx : σ x = some items) :
    run settings ρ σ (push x value)
      = some (σ.set x (items ++ [evaluate settings ρ σ value])) := by
  rw [push, run, hx]
  rfl

end

end Espalier.Render
