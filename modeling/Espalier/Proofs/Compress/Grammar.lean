import Espalier.Proofs.Compress.Prologue
import Espalier.Proofs.Script.Grammar

/-!
# Merged programs are of the grammar

Merging declarations keeps what the grammar asks of a program: how tightly an expression binds, how
it begins and which tokens end it (`Expr.rank_hoisted`, `Expr.leads_hoisted`,
`Expr.closes_hoisted`), and whether a statement takes an `else` (`Stmt.replaces_undeclared`). Main
statement: `formedAll_hoist`.
-/

namespace Espalier.Script

/-! ## Expressions -/

theorem Expr.rank_hoisted : ∀ e : Expr, e.hoisted.rank = e.rank
  | .dot owner _ | .index owner _ => owner.rank_hoisted
  | .name _ | .this | .null | .bool _ | .number _ | .string _ | .regex _ | .array _ | .object _
  | .group _ | .func .. | .call .. | .new .. | .newBare _ | .unary .. | .step .. | .binary ..
  | .assign .. | .cond .. | .comma .. => rfl

theorem Expr.head_hoisted : ∀ e : Expr, e.hoisted.head = e.head
  | .dot e _ | .index e _ | .call e _ | .step e _ | .binary _ e _ | .assign _ e _ | .cond e _ _
  | .comma e _ => e.head_hoisted
  | .name _ | .this | .null | .bool _ | .number _ | .string _ | .regex _ | .array _ | .object _
  | .group _ | .func .. | .new .. | .newBare _ | .unary .. => rfl

theorem Expr.leads_hoisted : ∀ (e : Expr) (continued : Bool),
    e.hoisted.leads continued = e.leads continued
  | .dot e _, _ | .index e _, _ | .call e _, _ | .step e _, _ | .binary _ e _, _
  | .assign _ e _, _ | .cond e _ _, _ | .comma e _, _ => e.leads_hoisted _
  | .func (some _) .., _ | .func none .., _ => rfl
  | .name _, _ | .this, _ | .null, _ | .bool _, _ | .number _, _ | .string _, _ | .regex _, _
  | .array _, _ | .object _, _ | .group _, _ | .new .., _ | .newBare _, _ | .unary .., _ => rfl

theorem Expr.closes_hoisted (kind : TokenKind) : ∀ (place : Place) (e : Expr),
    e.hoisted.closes place kind = e.closes place kind
  | place, .binary op _ right =>
    congrArg (op.yields (place.right op) kind && ·) (right.closes_hoisted kind (place.right op))
  | place, .assign _ _ right | place, .cond _ _ right | place, .comma _ right =>
    right.closes_hoisted kind place.next
  | _, .name _ | _, .this | _, .null | _, .bool _ | _, .number _ | _, .string _ | _, .regex _
  | _, .array _ | _, .object _ | _, .group _ | _, .func .. | _, .dot .. | _, .index ..
  | _, .call .. | _, .new .. | _, .newBare _ | _, .unary .. | _, .step .. => rfl

theorem Expr.isGroup_hoisted (e : Expr) : e.hoisted.isGroup = e.isGroup := by
  cases e <;> rfl

theorem Expr.isFunction_hoisted (e : Expr) : e.hoisted.isFunction = e.isFunction := by
  cases e <;> rfl

theorem Binding.endsBeforeIn_hoisted (b : Binding) : b.hoisted.endsBeforeIn = b.endsBeforeIn := by
  cases b with
  | bare name => rfl
  | init name value => exact value.closes_hoisted _ _

/-! ## Assignments in place of a declaration -/

theorem formedArgs_assignments {bindings : List Binding} (h : FormedBindings .free bindings) :
    FormedArgs (assignments bindings) := by
  induction bindings with
  | nil => trivial
  | cons b bs ih =>
    obtain ⟨hb, hbs⟩ := h
    cases b with
    | bare name => exact ih hbs
    | init name value =>
      obtain ⟨hname, hvalue, hrank⟩ := hb
      exact ⟨⟨hname, Nat.le_add_left 13 2, hvalue, hrank⟩, Nat.le_refl 1, ih hbs⟩

/-- Expressions in sequence begin like the first of them. -/
theorem formed_foldl_comma {rest : List Expr} {first : Expr}
    (hfirst : first.Formed .statement) (hleads : ∀ continued, first.leads continued = true)
    (hfunction : first.isFunction = false) (hrest : FormedArgs rest) :
    (Stmt.expr (rest.foldl .comma first)).Formed := by
  induction rest generalizing first with
  | nil => exact ⟨hfirst, hleads false, hfunction⟩
  | cons e rest ih =>
    obtain ⟨he, hrank, hrest⟩ := hrest
    exact ih ⟨hfirst, he, hrank⟩ (fun _ => hleads true) rfl hrest

theorem replaces_assigning {bindings : List Binding} (h : FormedBindings .free bindings) :
    ((assigning? bindings).getD (.block [])).Replaces (.vars bindings) := by
  induction bindings with
  | nil => exact ⟨trivial, rfl⟩
  | cons b bs ih =>
    obtain ⟨hb, hbs⟩ := h
    cases b with
    | bare name => exact ⟨(ih hbs).formed, (ih hbs).takesElse⟩
    | init name value =>
      obtain ⟨hname, hvalue, hrank⟩ := hb
      have hfirst : (Expr.assign .plain (.name name) value).Formed .statement :=
        ⟨hname, Nat.le_add_left 13 2, hvalue, hrank⟩
      exact ⟨formed_foldl_comma hfirst (fun _ => rfl) rfl (formedArgs_assignments hbs), rfl⟩

/-! ## One scope -/

theorem formedAll_toList {s : Option Stmt} (h : (s.getD (.block [])).Formed) :
    FormedAll s.toList := by
  cases s with
  | none => trivial
  | some s => exact ⟨h, trivial⟩

theorem Stmt.Replaces.refl {s : Stmt} (h : s.Formed) : s.Replaces s :=
  ⟨h, rfl⟩

mutual

/-- With assignments in place of its declarations, a statement stands where it stood. -/
theorem Stmt.replaces_undeclared : ∀ s : Stmt, s.Formed →
    (s.undeclared.getD (.block [])).Replaces s
  | .vars _, h => replaces_assigning h.2
  | .block body, h => ⟨formedAll_undeclared body h, rfl⟩
  | .ifThen _ yes, ⟨htest, hyes⟩ => ⟨⟨htest, (yes.replaces_undeclared hyes).formed⟩, rfl⟩
  | .ifElse _ yes no, ⟨htest, hyes, hclosed, hno⟩ => by
    have hfirst := yes.replaces_undeclared hyes
    have hsecond := no.replaces_undeclared hno
    exact ⟨⟨htest, hfirst.formed, hfirst.takesElse.trans hclosed, hsecond.formed⟩,
      hsecond.takesElse⟩
  | .loop _ _ _ body, ⟨hstart, htest, hnext, hbody⟩ =>
    ⟨⟨hstart, htest, hnext, (body.replaces_undeclared hbody).formed⟩,
      (body.replaces_undeclared hbody).takesElse⟩
  | .loopIn _ _ body, ⟨hitem, hitem', hcollection, hbody⟩
  | .loopVarIn _ _ body, ⟨hitem, hitem', hcollection, hbody⟩ =>
    ⟨⟨hitem, hitem', hcollection, (body.replaces_undeclared hbody).formed⟩,
      (body.replaces_undeclared hbody).takesElse⟩
  | .while _ body, ⟨he, hbody⟩ | .withScope _ body, ⟨he, hbody⟩ | .label _ body, ⟨he, hbody⟩ =>
    ⟨⟨he, (body.replaces_undeclared hbody).formed⟩, (body.replaces_undeclared hbody).takesElse⟩
  | .doWhile body _, ⟨hbody, htest⟩ => ⟨⟨(body.replaces_undeclared hbody).formed, htest⟩, rfl⟩
  | .switch _ clauses, ⟨hsubject, hclauses, hcount⟩ => by
    obtain ⟨hclauses', heq⟩ := formedClauses_undeclared clauses hclauses
    exact ⟨⟨hsubject, hclauses', heq ▸ hcount⟩, rfl⟩
  | .tryCatch body _ handler, ⟨hbody, hparam, hhandler⟩ =>
    ⟨⟨formedAll_undeclared body hbody, hparam, formedAll_undeclared handler hhandler⟩, rfl⟩
  | .tryFinally body finalizer, ⟨hbody, hfinalizer⟩ =>
    ⟨⟨formedAll_undeclared body hbody, formedAll_undeclared finalizer hfinalizer⟩, rfl⟩
  | .tryCatchFinally body _ handler finalizer, ⟨hbody, hparam, hhandler, hfinalizer⟩ =>
    ⟨⟨formedAll_undeclared body hbody, hparam, formedAll_undeclared handler hhandler,
      formedAll_undeclared finalizer hfinalizer⟩, rfl⟩
  | .empty, h | .expr _, h | .continue _, h | .break _, h | .ret _, h | .throw _, h | .debugger, h
  | .func .., h => .refl h

theorem formedAll_undeclared : ∀ ss : List Stmt, FormedAll ss → FormedAll (undeclaredAll ss)
  | [], _ => trivial
  | s :: ss, ⟨hs, hss⟩ =>
    formedAll_append (formedAll_toList (s.replaces_undeclared hs).formed)
      (formedAll_undeclared ss hss)

theorem formedClauses_undeclared : ∀ clauses : List Clause, FormedClauses clauses →
    FormedClauses (undeclaredClauses clauses) ∧
      (undeclaredClauses clauses).countP (·.isOtherwise) = clauses.countP (·.isOtherwise)
  | [], _ => ⟨trivial, rfl⟩
  | .on _ body :: clauses, ⟨hlabel, hbody, hclauses⟩ => by
    obtain ⟨hclauses', hcount⟩ := formedClauses_undeclared clauses hclauses
    exact ⟨⟨hlabel, formedAll_undeclared body hbody, hclauses'⟩, hcount⟩
  | .otherwise body :: clauses, ⟨hbody, hclauses⟩ => by
    obtain ⟨hclauses', hcount⟩ := formedClauses_undeclared clauses hclauses
    refine ⟨⟨formedAll_undeclared body hbody, hclauses'⟩, ?_⟩
    rw [undeclaredClauses, List.countP_cons_of_pos rfl, List.countP_cons_of_pos rfl, hcount]

end

/-- A declaration names a variable, and each of its variables is of the grammar. -/
def FormedDeclaration (bindings : List Binding) : Prop :=
  bindings ≠ [] ∧ FormedBindings .free bindings

mutual

/-- The declarations of a scope of the grammar are of the grammar. -/
theorem Stmt.formed_varStatements : ∀ s : Stmt, s.Formed →
    ∀ bindings ∈ s.varStatements, FormedDeclaration bindings
  | .vars _, h => List.forall_mem_singleton.2 h
  | .block body, h => formed_varStatementsAll body h
  | .ifThen _ body, h | .while _ body, h | .withScope _ body, h | .label _ body, h =>
    body.formed_varStatements h.2
  | .ifElse _ yes no, h =>
    List.forall_mem_append.2 ⟨yes.formed_varStatements h.2.1, no.formed_varStatements h.2.2.2⟩
  | .loop _ _ _ body, h | .loopIn _ _ body, h | .loopVarIn _ _ body, h =>
    body.formed_varStatements h.2.2.2
  | .doWhile body _, h => body.formed_varStatements h.1
  | .switch _ clauses, h => formed_varStatementsClauses clauses h.2.1
  | .tryCatch body _ handler, h =>
    List.forall_mem_append.2
      ⟨formed_varStatementsAll body h.1, formed_varStatementsAll handler h.2.2⟩
  | .tryFinally body finalizer, h =>
    List.forall_mem_append.2
      ⟨formed_varStatementsAll body h.1, formed_varStatementsAll finalizer h.2⟩
  | .tryCatchFinally body _ handler finalizer, h =>
    List.forall_mem_append.2 ⟨List.forall_mem_append.2
      ⟨formed_varStatementsAll body h.1, formed_varStatementsAll handler h.2.2.1⟩,
      formed_varStatementsAll finalizer h.2.2.2⟩
  | .empty, _ | .expr _, _ | .continue _, _ | .break _, _ | .ret _, _ | .throw _, _ | .debugger, _
  | .func .., _ => nofun

theorem formed_varStatementsAll : ∀ ss : List Stmt, FormedAll ss →
    ∀ bindings ∈ varStatementsAll ss, FormedDeclaration bindings
  | [], _ => nofun
  | s :: ss, h =>
    List.forall_mem_append.2 ⟨s.formed_varStatements h.1, formed_varStatementsAll ss h.2⟩

theorem formed_varStatementsClauses : ∀ clauses : List Clause, FormedClauses clauses →
    ∀ bindings ∈ varStatementsClauses clauses, FormedDeclaration bindings
  | [], _ => nofun
  | .on _ body :: clauses, h =>
    List.forall_mem_append.2
      ⟨formed_varStatementsAll body h.2.1, formed_varStatementsClauses clauses h.2.2⟩
  | .otherwise body :: clauses, h =>
    List.forall_mem_append.2
      ⟨formed_varStatementsAll body h.1, formed_varStatementsClauses clauses h.2⟩

end

theorem isName_of_mem {bindings : List Binding} (h : FormedBindings .free bindings) :
    ∀ b ∈ bindings, IsName b.name := by
  induction bindings with
  | nil => exact List.forall_mem_nil _
  | cons b bs ih =>
    refine List.forall_mem_cons.2 ⟨?_, ih h.2⟩
    cases b with
    | bare name => exact h.1
    | init name value => exact h.1.1

/-- The merged declaration names every variable of the scope. -/
theorem formed_merged {declarations : List (List Binding)} (hne : declarations ≠ [])
    (h : ∀ bindings ∈ declarations, FormedDeclaration bindings) :
    FormedDeclaration ((declaredNames declarations).map .bare) := by
  constructor
  · obtain ⟨bindings, hmem⟩ := List.exists_mem_of_ne_nil _ hne
    obtain ⟨b, hb⟩ := List.exists_mem_of_ne_nil _ (h bindings hmem).1
    have hname : b.name ∈ declaredNames declarations :=
      mem_firstOccurrences.2 (List.mem_flatMap.2 ⟨bindings, hmem, List.mem_map_of_mem hb⟩)
    exact List.ne_nil_of_mem (List.mem_map_of_mem hname)
  · have hnames : ∀ name ∈ declaredNames declarations, IsName name := by
      intro name hname
      obtain ⟨bindings, hmem, hname⟩ := List.mem_flatMap.1 (mem_firstOccurrences.1 hname)
      obtain ⟨b, hb, rfl⟩ := List.mem_map.1 hname
      exact isName_of_mem (h bindings hmem).2 b hb
    generalize declaredNames declarations = names at hnames
    induction names with
    | nil => trivial
    | cons name names ih =>
      obtain ⟨hname, hnames⟩ := List.forall_mem_cons.1 hnames
      exact ⟨hname, ih hnames⟩

theorem formedAll_mergeDeclarations {body : List Stmt} (h : FormedAll body) :
    FormedAll (mergeDeclarations body) := by
  unfold mergeDeclarations
  dsimp only
  split
  case isTrue => exact h
  case isFalse hmany =>
    have hne : varStatementsAll body ≠ [] := fun hnil => hmany (hnil ▸ Nat.zero_lt_two)
    exact ⟨formed_merged hne (formed_varStatementsAll body h), formedAll_undeclared body h⟩

/-! ## A program -/

mutual

/-- Merging inside the functions of an expression keeps it of the grammar. -/
theorem Expr.formed_hoisted : ∀ (place : Place) (e : Expr), e.Formed place →
    e.hoisted.Formed place
  | _, .array items, h => formedItems_hoisted items h
  | _, .object properties, h => formedProperties_hoisted properties h
  | _, .group e, h => ⟨e.formed_hoisted .free h.1, e.isGroup_hoisted.trans h.2⟩
  | _, .func _ _ body, h =>
    ⟨h.1, h.2.1, formedAll_mergeDeclarations (formedAll_hoisted body h.2.2)⟩
  | _, .dot owner _, h => ⟨owner.formed_hoisted .free h.1, owner.rank_hoisted ▸ h.2.1, h.2.2⟩
  | _, .index owner position, h =>
    ⟨owner.formed_hoisted .free h.1, owner.rank_hoisted ▸ h.2.1,
      position.formed_hoisted .free h.2.2⟩
  | _, .call callee args, h | _, .new callee args, h =>
    ⟨callee.formed_hoisted .free h.1, callee.rank_hoisted ▸ h.2.1, formedArgs_hoisted args h.2.2⟩
  | _, .newBare e, h | _, .unary _ e, h | _, .step e _, h =>
    ⟨e.formed_hoisted .free h.1, e.rank_hoisted ▸ h.2⟩
  | place, .binary op left right, h => by
    obtain ⟨hleft, hlevel, hright, hlevel', hin, hbrace⟩ := h
    exact ⟨left.formed_hoisted place hleft, left.rank_hoisted ▸ hlevel,
      right.formed_hoisted (place.right op) hright, right.rank_hoisted ▸ hlevel', hin,
      right.head_hoisted ▸ hbrace⟩
  | place, .assign _ left right, h =>
    ⟨left.formed_hoisted .free h.1, left.rank_hoisted ▸ h.2.1,
      right.formed_hoisted place.next h.2.2.1, right.rank_hoisted ▸ h.2.2.2⟩
  | place, .cond test yes no, h => by
    obtain ⟨htest, hrank, hyes, hrank', hno, hrank''⟩ := h
    exact ⟨test.formed_hoisted place htest, test.rank_hoisted ▸ hrank,
      yes.formed_hoisted place.next hyes, yes.rank_hoisted ▸ hrank',
      no.formed_hoisted place.next hno, no.rank_hoisted ▸ hrank''⟩
  | place, .comma left right, h =>
    ⟨left.formed_hoisted place h.1, right.formed_hoisted place.next h.2.1,
      right.rank_hoisted ▸ h.2.2⟩
  | _, .name _, h | _, .this, h | _, .null, h | _, .bool _, h | _, .number _, h | _, .string _, h
  | _, .regex _, h => h

theorem formedArgs_hoisted : ∀ es : List Expr, FormedArgs es → FormedArgs (hoistedExprs es)
  | [], _ => trivial
  | e :: es, h =>
    ⟨e.formed_hoisted .free h.1, e.rank_hoisted ▸ h.2.1, formedArgs_hoisted es h.2.2⟩

theorem formedOptional_hoisted : ∀ e : Option Expr, FormedOptional e →
    FormedOptional (hoistedOptional e)
  | none, _ => trivial
  | some e, h => e.formed_hoisted .free h

theorem formedItems_hoisted : ∀ items : List Item, FormedItems items →
    FormedItems (hoistedItems items)
  | [], _ => trivial
  | .elision _ :: items, h => by
    obtain ⟨hcount, hapart, hitems⟩ := h
    refine ⟨hcount, ?_, formedItems_hoisted items hitems⟩
    match items with
    | [] => nofun
    | .value _ :: _ => nofun
    | .elision more :: rest => exact (hapart more rest rfl).elim
  | .value e :: items, h =>
    ⟨e.formed_hoisted .free h.1, e.rank_hoisted ▸ h.2.1, formedItems_hoisted items h.2.2⟩

theorem formedProperties_hoisted : ∀ properties : List Property, FormedProperties properties →
    FormedProperties (hoistedProperties properties)
  | [], _ => trivial
  | .field _ value :: properties, ⟨⟨hkey, hvalue, hrank⟩, hrest⟩ =>
    ⟨⟨hkey, value.formed_hoisted .free hvalue, value.rank_hoisted ▸ hrank⟩,
      formedProperties_hoisted properties hrest⟩
  | .getter _ body :: properties, ⟨⟨hkey, hword, hbody⟩, hrest⟩ =>
    ⟨⟨hkey, hword, formedAll_hoisted body hbody⟩, formedProperties_hoisted properties hrest⟩
  | .setter _ _ body :: properties, ⟨⟨hkey, hword, hparam, hbody⟩, hrest⟩ =>
    ⟨⟨hkey, hword, hparam, formedAll_hoisted body hbody⟩,
      formedProperties_hoisted properties hrest⟩

theorem Binding.formed_hoisted : ∀ (place : Place) (b : Binding), b.Formed place →
    b.hoisted.Formed place
  | _, .bare _, h => h
  | place, .init _ value, h =>
    ⟨h.1, value.formed_hoisted place h.2.1, value.rank_hoisted ▸ h.2.2⟩

theorem formedBindings_hoisted : ∀ (place : Place) (bindings : List Binding),
    FormedBindings place bindings → FormedBindings place (hoistedBindings bindings)
  | _, [], _ => trivial
  | place, b :: bs, h => ⟨b.formed_hoisted place h.1, formedBindings_hoisted place bs h.2⟩

theorem LoopStart.formed_hoisted : ∀ start : LoopStart, start.Formed → start.hoisted.Formed
  | .nothing, _ => trivial
  | .vars (b :: bs), h => ⟨nofun, formedBindings_hoisted .loopHead (b :: bs) h.2⟩
  | .vars [], h => (h.1 rfl).elim
  | .expr e, h => e.formed_hoisted .loopHead h

/-- Merging inside the functions of a statement keeps it of the grammar. -/
theorem Stmt.replaces_hoisted : ∀ s : Stmt, s.Formed → s.hoisted.Replaces s
  | .block body, h => ⟨formedAll_hoisted body h, rfl⟩
  | .vars (b :: bs), h => ⟨⟨nofun, formedBindings_hoisted .free (b :: bs) h.2⟩, rfl⟩
  | .vars [], h => (h.1 rfl).elim
  | .expr e, ⟨he, hleads, hfunction⟩ =>
    ⟨⟨e.formed_hoisted .statement he, (e.leads_hoisted false).trans hleads,
      e.isFunction_hoisted.trans hfunction⟩, rfl⟩
  | .ifThen test yes, ⟨htest, hyes⟩ =>
    ⟨⟨test.formed_hoisted .free htest, (yes.replaces_hoisted hyes).formed⟩, rfl⟩
  | .ifElse test yes no, ⟨htest, hyes, hclosed, hno⟩ => by
    have hfirst := yes.replaces_hoisted hyes
    have hsecond := no.replaces_hoisted hno
    exact ⟨⟨test.formed_hoisted .free htest, hfirst.formed, hfirst.takesElse.trans hclosed,
      hsecond.formed⟩, hsecond.takesElse⟩
  | .loop start test next body, ⟨hstart, htest, hnext, hbody⟩ =>
    ⟨⟨start.formed_hoisted hstart, formedOptional_hoisted test htest,
      formedOptional_hoisted next hnext, (body.replaces_hoisted hbody).formed⟩,
      (body.replaces_hoisted hbody).takesElse⟩
  | .loopIn item collection body, ⟨hitem, hrank, hcollection, hbody⟩ =>
    ⟨⟨item.formed_hoisted .free hitem, item.rank_hoisted ▸ hrank,
      collection.formed_hoisted .free hcollection, (body.replaces_hoisted hbody).formed⟩,
      (body.replaces_hoisted hbody).takesElse⟩
  | .loopVarIn item collection body, ⟨hitem, hends, hcollection, hbody⟩ =>
    ⟨⟨item.formed_hoisted .loopHead hitem, item.endsBeforeIn_hoisted.trans hends,
      collection.formed_hoisted .free hcollection, (body.replaces_hoisted hbody).formed⟩,
      (body.replaces_hoisted hbody).takesElse⟩
  | .while e body, ⟨he, hbody⟩ | .withScope e body, ⟨he, hbody⟩ =>
    ⟨⟨e.formed_hoisted .free he, (body.replaces_hoisted hbody).formed⟩,
      (body.replaces_hoisted hbody).takesElse⟩
  | .label _ body, ⟨hname, hbody⟩ =>
    ⟨⟨hname, (body.replaces_hoisted hbody).formed⟩, (body.replaces_hoisted hbody).takesElse⟩
  | .doWhile body test, ⟨hbody, htest⟩ =>
    ⟨⟨(body.replaces_hoisted hbody).formed, test.formed_hoisted .free htest⟩, rfl⟩
  | .ret value, h => ⟨formedOptional_hoisted value h, rfl⟩
  | .throw value, h => ⟨value.formed_hoisted .free h, rfl⟩
  | .switch subject clauses, ⟨hsubject, hclauses, hcount⟩ => by
    obtain ⟨hclauses', heq⟩ := formedClauses_hoisted clauses hclauses
    exact ⟨⟨subject.formed_hoisted .free hsubject, hclauses', heq ▸ hcount⟩, rfl⟩
  | .tryCatch body _ handler, ⟨hbody, hparam, hhandler⟩ =>
    ⟨⟨formedAll_hoisted body hbody, hparam, formedAll_hoisted handler hhandler⟩, rfl⟩
  | .tryFinally body finalizer, ⟨hbody, hfinalizer⟩ =>
    ⟨⟨formedAll_hoisted body hbody, formedAll_hoisted finalizer hfinalizer⟩, rfl⟩
  | .tryCatchFinally body _ handler finalizer, ⟨hbody, hparam, hhandler, hfinalizer⟩ =>
    ⟨⟨formedAll_hoisted body hbody, hparam, formedAll_hoisted handler hhandler,
      formedAll_hoisted finalizer hfinalizer⟩, rfl⟩
  | .func _ _ body, ⟨hname, hparams, hbody⟩ =>
    ⟨⟨hname, hparams, formedAll_mergeDeclarations (formedAll_hoisted body hbody)⟩, rfl⟩
  | .empty, h | .continue _, h | .break _, h | .debugger, h => .refl h

theorem formedAll_hoisted : ∀ ss : List Stmt, FormedAll ss → FormedAll (hoistedStmts ss)
  | [], _ => trivial
  | s :: ss, h => ⟨(s.replaces_hoisted h.1).formed, formedAll_hoisted ss h.2⟩

theorem formedClauses_hoisted : ∀ clauses : List Clause, FormedClauses clauses →
    FormedClauses (hoistedClauses clauses) ∧
      (hoistedClauses clauses).countP (·.isOtherwise) = clauses.countP (·.isOtherwise)
  | [], _ => ⟨trivial, rfl⟩
  | .on label body :: clauses, ⟨hlabel, hbody, hclauses⟩ => by
    obtain ⟨hclauses', hcount⟩ := formedClauses_hoisted clauses hclauses
    exact ⟨⟨label.formed_hoisted .free hlabel, formedAll_hoisted body hbody, hclauses'⟩, hcount⟩
  | .otherwise body :: clauses, ⟨hbody, hclauses⟩ => by
    obtain ⟨hclauses', hcount⟩ := formedClauses_hoisted clauses hclauses
    refine ⟨⟨formedAll_hoisted body hbody, hclauses'⟩, ?_⟩
    rw [hoistedClauses, List.countP_cons_of_pos rfl, List.countP_cons_of_pos rfl, hcount]

end

/-- Merging keeps a program of the grammar. -/
theorem formedAll_hoist {program : Program} (h : FormedAll program) : FormedAll (hoist program) :=
  formedAll_mergeDeclarations (formedAll_hoisted program h)

end Espalier.Script
