import Espalier.Proofs.Render.Resolving
import Espalier.Proofs.Render.Execution

/-!
# Elements of a forest

A forest of outputs is written as a program of reserved calls, an element as its call and a block of
its children. Main statement: the program has a render function, and running that function gives the
forest back (`invoke_resolve_forest`). Every element is made of its own type and properties and
exactly its own children in order, whatever the expressions stand for.

The simulation (`resolveAll_forest`) says what the resolved statements of a forest do to the store
(`Fills`): the target array is extended by the values of the forest, and apart from it only arrays
of elements that were named on the way are written.
-/

namespace Espalier.Render

open Espalier.Script

/-! ## Forests -/

/-- An expression that an author may write: it holds no reserved name that has to be resolved and no
array of the render function. -/
structure AuthorExpr where
  expr : Expr
  unreserved : ∀ name ∈ expr.names, Unreserved name
  uncollected : ∀ name ∈ expr.names, isCollector name = false

/-- What a template puts out at one place. -/
inductive Output where
  | element (type props : AuthorExpr) (children : List Output)
  | text (value : AuthorExpr)
  /-- Raw markup. -/
  | raw (value : AuthorExpr)

/-- The statement that calls a reserved name. -/
def reservedCall (name : String) (args : List Expr) : Stmt :=
  .expr (.call (.name name) args)

mutual

/-- The reserved calls of an output. -/
def Output.program : Output → Program
  | .element type props children =>
    [reservedCall Marker.element [type.expr, props.expr], .block (forestProgram children)]
  | .text value => [reservedCall Marker.text [value.expr]]
  | .raw value => [reservedCall Marker.raw [value.expr]]

/-- The reserved calls of a forest, in order. -/
def forestProgram : List Output → Program
  | [] => []
  | o :: os => o.program ++ forestProgram os

end

section
variable {V : Type} (settings : Settings) (ρ : Reading V) (σ : Store V)

mutual

/-- The value that an output stands for. -/
def Output.denote : Output → Val V
  | .element type props children =>
    .element (evaluate settings ρ σ type.expr :: evaluate settings ρ σ props.expr
      :: denoteAll children)
  | .text value => evaluate settings ρ σ value.expr
  | .raw value => .element [.literal "\x22span\x22",
      .object [("dangerouslySetInnerHTML",
        .object [("__html", evaluate settings ρ σ value.expr)])]]

/-- The values that a forest stands for, in order. -/
def denoteAll : List Output → List (Val V)
  | [] => []
  | o :: os => o.denote :: denoteAll os

end

end

/-- A single value by itself, any other number of values as an array. -/
def soleOrArray {V : Type} : List (Val V) → Val V
  | [value] => value
  | values => .array values

/-! ## The simulation -/

/-- The variable is none of the arrays of elements numbered from `n` on. -/
def Older (n : Nat) (x : String) : Prop :=
  ∀ k, n ≤ k → x ≠ "$element" ++ toString k

/-- The store changes in the variable `target` and in arrays of elements numbered from `n` on, and
nowhere else. -/
def Frame {V : Type} (target : String) (n : Nat) (σ τ : Store V) : Prop :=
  ∀ x, x ≠ target → Older n x → τ x = σ x

theorem older_children (m n : Nat) : Older n ("$children" ++ toString m) :=
  fun k _ => children_ne_element m k

theorem older_element (n : Nat) : Older (n + 1) ("$element" ++ toString n) := by
  intro k hk h
  have := stem_append_injective h
  omega

theorem Older.mono {m n : Nat} {x : String} (h : Older m x) (hmn : m ≤ n) : Older n x :=
  fun k hk => h k (Nat.le_trans hmn hk)

section
variable {V : Type} {settings : Settings} {ρ : Reading V} {σ τ υ : Store V} {target : String}

theorem Frame.trans {m n : Nat} (hmn : m ≤ n) (h₁ : Frame target m σ τ) (h₂ : Frame target n τ υ) :
    Frame target m σ υ := by
  intro x hx hold
  rw [h₂ x hx (Older.mono hold hmn), h₁ x hx hold]

/-- An author's expression has the same value before and after: no array is one of its names. -/
theorem Frame.evaluate_eq {n : Nat} (h : Frame target n σ τ) (htarget : isCollector target = true)
    (e : AuthorExpr) : evaluate settings ρ τ e.expr = evaluate settings ρ σ e.expr := by
  refine evaluate_congr fun x hx => h x ?_ fun k _ => ?_
  · rintro rfl
    exact Bool.false_ne_true ((e.uncollected x hx).symm.trans htarget)
  · rintro rfl
    exact Bool.false_ne_true ((e.uncollected _ hx).symm.trans (isCollector_element k))

mutual

theorem Frame.denote_eq {n : Nat} (h : Frame target n σ τ) (htarget : isCollector target = true) :
    ∀ o : Output, o.denote settings ρ τ = o.denote settings ρ σ
  | .element type props children => by
    rw [Output.denote, Output.denote, h.evaluate_eq htarget, h.evaluate_eq htarget,
      h.denoteAll_eq htarget]
  | .text value => by rw [Output.denote, Output.denote, h.evaluate_eq htarget]
  | .raw value => by rw [Output.denote, Output.denote, h.evaluate_eq htarget]

theorem Frame.denoteAll_eq {n : Nat} (h : Frame target n σ τ)
    (htarget : isCollector target = true) :
    ∀ os : List Output, denoteAll settings ρ τ os = denoteAll settings ρ σ os
  | [] => by rw [denoteAll, denoteAll]
  | o :: os => by
    rw [denoteAll, denoteAll, h.denote_eq htarget o, h.denoteAll_eq htarget os]

end

/-- What the resolved statements of a forest are for: they hold no reserved name, and they extend
the target array by the values of the forest. -/
structure Fills (settings : Settings) (target : String) (n : Nat) (os : List Output)
    (out : List Stmt) : Prop where
  unreserved : ∀ name ∈ stmtNames out, Unreserved name
  runs : ∀ {V : Type} (ρ : Reading V) (σ : Store V) (items : List (Val V)),
    σ target = some items → ∃ τ, runAll settings ρ σ out = some τ ∧
      τ target = some (items ++ denoteAll settings ρ σ os) ∧ Frame target n σ τ

/-- A statement that adds a single value is followed by what fills the array with the rest. -/
theorem Fills.cons {n m : Nat} {o : Output} {os : List Output} {s : Stmt} {out : List Stmt}
    (htarget : isCollector target = true) (hnm : n ≤ m)
    (hnames : ∀ name ∈ s.names, Unreserved name)
    (hrun : ∀ {V : Type} (ρ : Reading V) (σ : Store V) (items : List (Val V)),
      σ target = some items → ∃ τ, run settings ρ σ s = some τ ∧
        τ target = some (items ++ [o.denote settings ρ σ]) ∧ Frame target n σ τ)
    (hrest : Fills settings target m os out) :
    Fills settings target n (o :: os) (s :: out) where
  unreserved := by
    intro name hname
    rw [stmtNames, List.mem_append] at hname
    exact hname.elim (hnames name) (hrest.unreserved name)
  runs := by
    intro V ρ σ items hσ
    obtain ⟨τ, hτ, hitems, hframe⟩ := hrun ρ σ items hσ
    obtain ⟨υ, hυ, hitems', hframe'⟩ := hrest.runs ρ τ _ hitems
    refine ⟨υ, ?_, ?_, hframe.trans hnm hframe'⟩
    · rw [runAll, hτ]
      exact hυ
    · rw [hitems', hframe.denoteAll_eq htarget, denoteAll, List.append_assoc]
      rfl

/-- One addition to the target array. -/
theorem run_push_frame (ρ : Reading V) (n : Nat) {value : Expr} {items : List (Val V)}
    (hσ : σ target = some items) :
    ∃ τ, run settings ρ σ (push target value) = some τ ∧
      τ target = some (items ++ [evaluate settings ρ σ value]) ∧ Frame target n σ τ :=
  ⟨_, run_push hσ, Store.set_self .., fun _ hx _ => Store.set_of_ne hx⟩

/-- The block of an element adds the element to the target array, when its children's statements
fill the element's own array. -/
theorem run_elementBlock {n : Nat} {type props : AuthorExpr} {children : List Output}
    {out : List Stmt} (hold : Older n target)
    (hfills : Fills settings ("$element" ++ toString n) (n + 1) children out)
    (ρ : Reading V) (σ : Store V) (items : List (Val V)) (hσ : σ target = some items) :
    ∃ τ, run settings ρ σ (settings.elementBlock target ("$element" ++ toString n)
        [type.expr, props.expr] out) = some τ ∧
      τ target = some (items ++ [(Output.element type props children).denote settings ρ σ]) ∧
      Frame target n σ τ := by
  let array := "$element" ++ toString n
  have hne : target ≠ array := hold n (Nat.le_refl n)
  -- the three parts of the block: declare the array, fill it, output the element
  let declared := σ.set array [evaluate settings ρ σ type.expr, evaluate settings ρ σ props.expr]
  have hdeclare : run settings ρ σ (declare array (.array ([type.expr, props.expr].map .value)))
      = some declared := run_declare _ _
  obtain ⟨filled, hfilled, hparts, hframe⟩ :=
    hfills.runs ρ declared _ (Store.set_self σ array _)
  have hdeclared : Frame array (n + 1) σ declared := fun _ hx _ => Store.set_of_ne hx
  have hboth : Frame array (n + 1) σ filled := hdeclared.trans (Nat.le_refl _) hframe
  have hfilled_target : filled target = some items := by
    rw [hboth target hne (hold.mono (Nat.le_succ n)), hσ]
  let created := evaluate settings ρ filled (settings.create array)
  have hpush : run settings ρ filled (push target (settings.create array))
      = some (filled.set target (items ++ [created])) := run_push hfilled_target
  refine ⟨filled.set target (items ++ [created]), ?_, ?_, ?_⟩
  · rw [Settings.elementBlock, run, List.cons_append, runAll, hdeclare]
    refine runAll_append hfilled ?_
    rw [runAll_singleton, hpush]
  · rw [Store.set_self, show created = _ from evaluate_create hparts, Output.denote,
      hdeclared.denoteAll_eq (isCollector_element n)]
    rfl
  · intro x hx hxold
    rw [Store.set_of_ne hx, hboth x (hxold n (Nat.le_refl n)) (hxold.mono (Nat.le_succ n))]

/-- Resolving a forest succeeds, and the result fills the target array with it. -/
theorem resolveAll_forest (hset : settings.Unreserved) :
    ∀ (os : List Output) {target : String} {n : Nat}, isCollector target = true → Older n target →
      ∃ out m, (resolveAll settings target (forestProgram os)).run n = .ok (out, m) ∧ n ≤ m ∧
        Fills settings target n os out
  | [], target, n, _, _ => by
    refine ⟨[], n, ?_, Nat.le_refl n, ?_, ?_⟩
    · rw [forestProgram, resolveAll_nil, run_pure_eq_ok]
      exact ⟨rfl, rfl⟩
    · intro name hname
      cases hname
    · intro V ρ σ items hσ
      exact ⟨σ, rfl, by rw [denoteAll, List.append_nil, hσ], fun _ _ _ => rfl⟩
  | .element type props children :: os, target, n, htarget, hold => by
    obtain ⟨inner, k, hinner, hnk, hfills⟩ :=
      resolveAll_forest hset children (isCollector_element n) (older_element n)
    obtain ⟨out, m, hout, hkm, hrest⟩ :=
      resolveAll_forest hset os htarget (hold.mono (Nat.le_of_succ_le hnk))
    refine ⟨_, m, ?_, by omega, hrest.cons htarget (by omega) ?_
      (run_elementBlock hold hfills)⟩
    · rw [forestProgram, Output.program, reservedCall, List.cons_append, List.cons_append,
        List.nil_append, resolveAll_element_block]
      refine run_bind_eq_ok.2 ⟨_, n + 1, rfl, run_bind_eq_ok.2 ⟨inner, k, hinner,
        run_bind_eq_ok.2 ⟨out, m, hout, rfl⟩⟩⟩
    · refine unreserved_elementBlock hset htarget (isCollector_element n) ?_ hfills.unreserved
      simp only [exprNames, List.append_nil, List.forall_mem_append]
      exact ⟨type.unreserved, props.unreserved⟩
  | .text value :: os, target, n, htarget, hold => by
    obtain ⟨out, m, hout, hnm, hrest⟩ := resolveAll_forest hset os htarget hold
    refine ⟨push target value.expr :: out, m, ?_, hnm, hrest.cons htarget (Nat.le_refl n) ?_
      fun ρ σ items hσ => ?_⟩
    · rw [forestProgram, Output.program, reservedCall, List.cons_append, List.nil_append,
        resolveAll_cons _ _ _ _ (.inl (elementCall?_of_ne _ (by decide))), resolveStmt_text]
      exact run_bind_eq_ok.2 ⟨_, n, rfl, run_bind_eq_ok.2 ⟨out, m, hout, rfl⟩⟩
    · exact unreserved_push htarget value.unreserved
    · rw [Output.denote]
      exact run_push_frame ρ n hσ
  | .raw value :: os, target, n, htarget, hold => by
    obtain ⟨out, m, hout, hnm, hrest⟩ := resolveAll_forest hset os htarget hold
    refine ⟨push target (settings.rawMarkup value.expr) :: out, m, ?_, hnm,
      hrest.cons htarget (Nat.le_refl n) ?_ fun ρ σ items hσ => ?_⟩
    · rw [forestProgram, Output.program, reservedCall, List.cons_append, List.nil_append,
        resolveAll_cons _ _ _ _ (.inl (elementCall?_of_ne _ (by decide))), resolveStmt_raw]
      exact run_bind_eq_ok.2 ⟨_, n, rfl, run_bind_eq_ok.2 ⟨out, m, hout, rfl⟩⟩
    · exact unreserved_push htarget (unreserved_rawMarkup hset value.unreserved)
    · rw [Output.denote, ← evaluate_rawMarkup]
      exact run_push_frame ρ n hσ

end

/-! ## The render function of a forest -/

/-- The returned conditional picks the only item of the array, or else the array. -/
theorem selected_soleOrAll {V : Type} {σ : Store V} {x : String} {items : List (Val V)}
    (hx : σ x = some items) : selected σ (soleOrAll x) = some (soleOrArray items) := by
  rw [soleOrAll, selected, hx]
  rcases items with _ | ⟨_, _ | _⟩ <;> rfl

/-- A forest of outputs has a render function, and running it gives the forest's values: the single
one by itself, any other number as an array. -/
theorem invoke_resolve_forest (settings : Settings) (hset : settings.Unreserved)
    (os : List Output) :
    ∃ body, resolve settings (forestProgram os)
        = .ok [.func settings.functionName ["block"] body] ∧
      ∀ {V : Type} (ρ : Reading V) (σ : Store V),
        invoke settings ρ σ body = some (soleOrArray (denoteAll settings ρ σ os)) := by
  have hroot : isCollector "$children0" = true := by decide
  obtain ⟨out, m, hout, -, hfills⟩ := resolveAll_forest hset os hroot (older_children 0 1)
  refine ⟨_, resolve_eq_ok_iff.2 ⟨out, m, hout, rfl,
    unreserved_renderFunction hset hroot hfills.unreserved⟩, fun ρ σ => ?_⟩
  -- the root array is empty when the statements of the forest begin to fill it
  let start := σ.set "$children0" []
  have hstart : Frame "$children0" 1 σ start := fun _ hx _ => Store.set_of_ne hx
  have hdeclare : run settings ρ σ (declare "$children0" (.array [])) = some start :=
    run_declare _ []
  obtain ⟨τ, hτ, hitems, -⟩ := hfills.runs ρ start [] (Store.set_self ..)
  rw [hstart.denoteAll_eq hroot] at hitems
  have hbody : runAll settings ρ σ (declare "$children0" (.array []) :: out) = some τ := by
    rw [runAll, hdeclare]
    exact hτ
  rw [invoke_append hbody, invoke, selected_soleOrAll hitems, List.nil_append]

/-- A list with a text and raw markup in it, by the default factory. -/
theorem invoke_resolve_list :
    ({} : Settings).Unreserved ∧
      ∃ body, resolve {} (forestProgram [.element ⟨.string "\x22ul\x22", by decide, by decide⟩
            ⟨.null, by decide, by decide⟩ [.text ⟨.name "title", by decide, by decide⟩,
              .raw ⟨.name "note", by decide, by decide⟩]])
          = .ok [.func "render" ["block"] body] ∧
        ∀ {V : Type} (ρ : Reading V) (σ : Store V), invoke {} ρ σ body
          = some (.element [.literal "\x22ul\x22", .given (ρ.value σ .null),
              .given (ρ.value σ (.name "title")),
              .element [.literal "\x22span\x22", .object [("dangerouslySetInnerHTML",
                .object [("__html", .given (ρ.value σ (.name "note")))])]]]) := by
  have hset : ({} : Settings).Unreserved := ⟨by decide, by decide⟩
  refine ⟨hset, ?_⟩
  obtain ⟨body, hresolve, hinvoke⟩ := invoke_resolve_forest {} hset _
  refine ⟨body, hresolve, fun ρ σ => ?_⟩
  rw [hinvoke]
  rfl

end Espalier.Render
