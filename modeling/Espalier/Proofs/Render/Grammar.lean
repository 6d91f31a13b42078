import Espalier.Proofs.Render.Conservation
import Espalier.Proofs.Render.Printed
import Espalier.Proofs.Script.Roundtrip

/-!
# Render functions are of the grammar

Resolving puts statements of its own in the place of reserved calls. They are of the grammar if the
settings are (`Settings.Readable`), and so is what they are put together with: a resolved statement
takes an `else` only if it did before, and a chain of calls begins as it began. Main statement:
`formedAll_resolve`, by which the render function of a program of the grammar is of the grammar.
-/

namespace Espalier.Render

open Espalier.Script Espalier.Text

/-! ## Names -/

theorem isName_of_plain {id : String} (h : PlainName id) : IsName id := by
  refine isName_of_word ⟨h.word, ?_⟩
  have htoken := h.token
  rw [wordToken] at htoken
  split at htoken
  case h_1 => cases htoken
  case h_2 hnone => exact hnone

theorem IsArray.isName {id : String} (h : IsArray id) : IsName id :=
  isName_of_plain h.name

/-- A dotted name is made of words, the first of which is a name. -/
def IsPath : List (List Char) → Prop
  | [] => False
  | first :: fields =>
    IsName (String.ofList first) ∧ ∀ field ∈ fields, (wordToken (String.ofList field)).Genuine

theorem formed_path {parts : List (List Char)} (h : IsPath parts) :
    (path parts).Formed .free ∧ 15 ≤ (path parts).rank := by
  have hfields : ∀ (fields : List (List Char)) (owner : Expr),
      (∀ field ∈ fields, (wordToken (String.ofList field)).Genuine) →
      owner.Formed .free ∧ 15 ≤ owner.rank →
      (fields.foldl (fun owner field => .dot owner (String.ofList field)) owner).Formed .free ∧
        15 ≤ (fields.foldl (fun owner field => .dot owner (String.ofList field)) owner).rank := by
    intro fields
    induction fields with
    | nil => exact fun _ _ h => h
    | cons field fields ih =>
      intro owner hwords howner
      obtain ⟨hfield, hrest⟩ := List.forall_mem_cons.1 hwords
      exact ih _ hrest ⟨⟨howner.1, Nat.le_of_succ_le howner.2, hfield⟩, howner.2⟩
  cases parts with
  | nil => exact h.elim
  | cons first fields => exact hfields fields _ h.2 ⟨h.1, Nat.le_refl _⟩

/-- The settings give a function's name and a dotted name. -/
structure Settings.Readable (settings : Settings) : Prop where
  functionName : IsName settings.functionName
  factory : IsPath (cutAt '.' settings.factory.toList)

theorem readable_default : ({} : Settings).Readable where
  functionName := isName_of_word (by decide)
  factory := by
    have hparts : cutAt '.' "React.createElement".toList
        = ["React".toList, "createElement".toList] := by
      decide
    have hfirst : IsName "React" := isName_of_word (by decide)
    have hsecond : IsName "createElement" := isName_of_word (by decide)
    rw [hparts]
    exact ⟨hfirst, List.forall_mem_singleton.2 hsecond.field⟩

section
variable {settings : Settings} (h : settings.Readable)
include h

theorem Settings.Readable.formed_factoryExpr :
    settings.factoryExpr.Formed .free ∧ 15 ≤ settings.factoryExpr.rank :=
  formed_path h.factory

theorem Settings.Readable.formed_receiver :
    settings.receiver.Formed .free ∧ 15 ≤ settings.receiver.rank := by
  have hparts := h.factory
  unfold Settings.receiver
  generalize cutAt '.' settings.factory.toList = parts at hparts ⊢
  dsimp only
  split
  case isTrue => exact ⟨trivial, Nat.le_refl _⟩
  case isFalse howner =>
    match parts with
    | [] => exact hparts.elim
    | [_] => exact absurd rfl howner
    | first :: second :: rest =>
      refine formed_path ⟨hparts.1, fun field hfield => hparts.2 field ?_⟩
      exact List.dropLast_subset _ hfield

end

/-! ## Pieces -/

section
variable {settings : Settings} {array target : String} {value : Expr} {args : List Expr}
  {body children : List Stmt}

theorem formed_declare (harray : IsName array) (hvalue : value.Formed .free)
    (hrank : 1 ≤ value.rank) : (declare array value).Formed :=
  ⟨nofun, ⟨harray, hvalue, hrank⟩, trivial⟩

theorem formed_push (harray : IsName array) (hvalue : value.Formed .free)
    (hrank : 1 ≤ value.rank) : (push array value).Formed := by
  have hpush : IsName "push" := isName_of_word (by decide)
  have hdot : (Expr.dot (.name array) "push").Formed .free :=
    ⟨harray, Nat.le_succ 14, hpush.field⟩
  exact ⟨⟨hdot, Nat.le_succ 14, hvalue, hrank, trivial⟩, rfl, rfl⟩

theorem formed_create (h : settings.Readable) (harray : IsName array) :
    (settings.create array).Formed .free ∧ 1 ≤ (settings.create array).rank := by
  have happly : IsName "apply" := isName_of_word (by decide)
  obtain ⟨hfactory, hrank⟩ := h.formed_factoryExpr
  obtain ⟨hreceiver, hrank'⟩ := h.formed_receiver
  have hdot : (Expr.dot settings.factoryExpr "apply").Formed .free :=
    ⟨hfactory, Nat.le_of_succ_le hrank, happly.field⟩
  exact ⟨⟨hdot, Nat.le_of_succ_le hrank, hreceiver, Nat.le_trans (by decide) hrank', harray,
    Nat.le_add_left 1 14, trivial⟩, Nat.le_add_left 1 13⟩

theorem formed_rawMarkup (h : settings.Readable) (hvalue : value.Formed .free)
    (hrank : 1 ≤ value.rank) :
    (settings.rawMarkup value).Formed .free ∧ 1 ≤ (settings.rawMarkup value).rank := by
  have hinner : IsName "dangerouslySetInnerHTML" := isName_of_word (by decide)
  have hmarkup : IsName "__html" := isName_of_word (by decide)
  have hspan : (TokenKind.string "\x22span\x22").Genuine :=
    ⟨{}, "\x22span\x22".toList, none, [], rfl⟩
  obtain ⟨hfactory, hrank'⟩ := h.formed_factoryExpr
  have hobject : (Expr.object [.field (.name "__html") value]).Formed .free :=
    ⟨⟨hmarkup.field, hvalue, hrank⟩, trivial⟩
  have hprops : (Expr.object [.field (.name "dangerouslySetInnerHTML")
      (.object [.field (.name "__html") value])]).Formed .free :=
    ⟨⟨hinner.field, hobject, Nat.le_add_left 1 14⟩, trivial⟩
  exact ⟨⟨hfactory, Nat.le_of_succ_le hrank', hspan, Nat.le_add_left 1 14, hprops,
    Nat.le_add_left 1 14, trivial⟩, Nat.le_add_left 1 13⟩

end

/-! ## Blocks and functions -/

theorem formedArgs_values {args : List Expr} (h : FormedArgs args) :
    FormedItems (args.map .value) := by
  induction args with
  | nil => trivial
  | cons e es ih => exact ⟨h.1, h.2.1, ih h.2.2⟩

theorem formed_elementBlock {settings : Settings} {target array : String} {args : List Expr}
    {children : List Stmt} (h : settings.Readable) (htarget : IsName target)
    (harray : IsName array) (hargs : FormedArgs args) (hchildren : FormedAll children) :
    (settings.elementBlock target array args children).Formed := by
  obtain ⟨hcreate, hrank⟩ := formed_create h harray
  have hdeclare : (declare array (.array (args.map .value))).Formed :=
    formed_declare harray (formedArgs_values hargs) (Nat.le_add_left 1 14)
  exact ⟨hdeclare, formedAll_append hchildren ⟨formed_push htarget hcreate hrank, trivial⟩⟩

theorem formedAll_collectingBody {array : String} {body : List Stmt} (harray : IsName array)
    (hbody : FormedAll body) : FormedAll (collectingBody array body) :=
  ⟨formed_declare harray trivial (Nat.le_add_left 1 14), formedAll_append hbody ⟨harray, trivial⟩⟩

theorem formed_soleOrAll {array : String} (harray : IsName array) :
    (soleOrAll array).Formed .free := by
  have hlength : IsName "length" := isName_of_word (by decide)
  have hone : (TokenKind.number "1").Genuine := ⟨{}, "1;".toList, none, [';'], rfl⟩
  have hzero : (TokenKind.number "0").Genuine := ⟨{}, "0;".toList, none, [';'], rfl⟩
  have hdot : (Expr.dot (.name array) "length").Formed .free :=
    ⟨harray, Nat.le_succ 14, hlength.field⟩
  have htest : (Expr.binary .eqStrict (.dot (.name array) "length") (.number "1")).Formed .free :=
    ⟨hdot, Nat.le_of_ble_eq_true rfl, hone, Nat.le_of_ble_eq_true rfl, nofun, nofun⟩
  have hindex : (Expr.index (.name array) (.number "0")).Formed .free :=
    ⟨harray, Nat.le_succ 14, hzero⟩
  exact ⟨htest, Nat.le_of_ble_eq_true rfl, hindex, Nat.le_add_left 1 14, harray,
    Nat.le_add_left 1 14⟩

theorem formed_renderFunction {settings : Settings} {root : String} {body : List Stmt}
    (h : settings.Readable) (hroot : IsName root) (hbody : FormedAll body) :
    (settings.renderFunction root body).Formed := by
  have hblock : IsName "block" := isName_of_word (by decide)
  have hresult : (Stmt.ret (some (soleOrAll root))).Formed := formed_soleOrAll hroot
  exact ⟨h.functionName, List.forall_mem_singleton.2 hblock,
    formed_declare hroot trivial (Nat.le_add_left 1 14), formedAll_append hbody ⟨hresult, trivial⟩⟩

/-! ## Resolving -/

/-- The expression is one that the readers find at the place, binds as tightly as the other one, and
begins like it. -/
structure Resembles (place : Place) (e out : Expr) : Prop where
  formed : out.Formed place
  rank : out.rank = e.rank
  leads : ∀ continued, out.leads continued = e.leads continued
  isFunction : out.isFunction = e.isFunction

theorem Resembles.refl {place : Place} {e : Expr} (h : e.Formed place) : Resembles place e e :=
  ⟨h, rfl, fun _ => rfl, rfl⟩

section
variable {settings : Settings}

/-- An element without children, or an output. -/
theorem resolveStmt_reserved_formed (hsettings : settings.Readable) {target id : String}
    {args : List Expr} {out : Stmt} {n m : Nat} (hid : id ∈ Marker.resolved)
    (htarget : IsName target) (hargs : FormedArgs args)
    (h : (resolveStmt settings target (.expr (.call (.name id) args))).run n = .ok (out, m)) :
    out.Replaces (.expr (.call (.name id) args)) := by
  simp only [Marker.resolved, List.mem_cons, List.not_mem_nil, or_false] at hid
  obtain rfl | rfl | rfl := hid
  · rw [resolveStmt_element] at h
    obtain ⟨array, k, harray, h⟩ := run_bind_eq_ok.1 h
    obtain ⟨-, rfl, -⟩ := run_elementArray harray
    obtain ⟨rfl, -⟩ := run_pure_eq_ok.1 h
    exact ⟨formed_elementBlock hsettings htarget (isArray_element n).isName hargs trivial, rfl⟩
  · rw [resolveStmt_text] at h
    obtain ⟨value, hvalue, rfl⟩ := run_map_eq_ok.1 h
    obtain ⟨rfl, -⟩ := run_onlyArgument hvalue
    exact ⟨formed_push htarget hargs.1 hargs.2.1, rfl⟩
  · rw [resolveStmt_raw] at h
    obtain ⟨value, hvalue, rfl⟩ := run_map_eq_ok.1 h
    obtain ⟨rfl, -⟩ := run_onlyArgument hvalue
    obtain ⟨hraw, hrank⟩ := formed_rawMarkup hsettings hargs.1 hargs.2.1
    exact ⟨formed_push htarget hraw hrank, rfl⟩

mutual

/-- Statements. -/
theorem resolveAll_formed (hsettings : settings.Readable) : ∀ (stmts : List Stmt)
    {target : String} {out : List Stmt} {n m : Nat}, IsName target → FormedAll stmts →
    (resolveAll settings target stmts).run n = .ok (out, m) → FormedAll out
  | [], _, _, _, _, _, _, h => by
    rw [resolveAll_nil] at h
    obtain ⟨rfl, -⟩ := run_pure_eq_ok.1 h
    trivial
  | s :: rest, target, out, n, m, htarget, hformed, h => by
    obtain ⟨hs, hrest⟩ := hformed
    by_cases hplain : elementCall? s = none ∨ ∀ inner after, rest ≠ .block inner :: after
    · rw [resolveAll_cons settings target s rest hplain] at h
      obtain ⟨s', k, hstmt, h⟩ := run_bind_eq_ok.1 h
      obtain ⟨rest', htail, rfl⟩ := run_map_eq_ok.1 h
      exact ⟨(resolveStmt_formed hsettings s htarget hs hstmt).formed,
        resolveAll_formed hsettings rest htarget hrest htail⟩
    · simp only [not_or, Classical.not_forall, Classical.not_not] at hplain
      obtain ⟨hsome, inner, after, rfl⟩ := hplain
      obtain ⟨args, hargs⟩ := Option.ne_none_iff_exists'.1 hsome
      obtain rfl := elementCall?_eq_some hargs
      rw [resolveAll_element_block] at h
      obtain ⟨array, k, harray, h⟩ := run_bind_eq_ok.1 h
      obtain ⟨children, k', hchildren, h⟩ := run_bind_eq_ok.1 h
      obtain ⟨after', hafter, rfl⟩ := run_map_eq_ok.1 h
      obtain ⟨-, rfl, -⟩ := run_elementArray harray
      have hname := (isArray_element n).isName
      obtain ⟨hinner, hafter_formed⟩ := hrest
      exact ⟨formed_elementBlock hsettings htarget hname hs.1.2.2
          (resolveAll_formed hsettings inner hname hinner hchildren),
        resolveAll_formed hsettings after htarget hafter_formed hafter⟩
termination_by t => sizeOf t
decreasing_by all_goals (subst_vars; simp +arith)

/-- A statement. -/
theorem resolveStmt_formed (hsettings : settings.Readable) : ∀ (s : Stmt) {target : String}
    {out : Stmt} {n m : Nat}, IsName target → s.Formed →
    (resolveStmt settings target s).run n = .ok (out, m) → out.Replaces s
  | .block body, _, _, _, _, htarget, hformed, h => by
    rw [resolveStmt] at h
    obtain ⟨body', hbody, rfl⟩ := run_map_eq_ok.1 h
    exact ⟨resolveAll_formed hsettings body htarget hformed hbody, rfl⟩
  | .ifThen _ yes, _, _, _, _, htarget, hformed, h => by
    rw [resolveStmt] at h
    obtain ⟨yes', hyes, rfl⟩ := run_map_eq_ok.1 h
    exact ⟨⟨hformed.1, (resolveStmt_formed hsettings yes htarget hformed.2 hyes).formed⟩, rfl⟩
  | .ifElse _ yes no, _, _, _, _, htarget, hformed, h => by
    rw [resolveStmt] at h
    obtain ⟨yes', k, hyes, h⟩ := run_bind_eq_ok.1 h
    obtain ⟨no', hno, rfl⟩ := run_map_eq_ok.1 h
    obtain ⟨htest, hyes_formed, hclosed, hno_formed⟩ := hformed
    have hfirst := resolveStmt_formed hsettings yes htarget hyes_formed hyes
    have hsecond := resolveStmt_formed hsettings no htarget hno_formed hno
    exact ⟨⟨htest, hfirst.formed, hfirst.takesElse.trans hclosed, hsecond.formed⟩,
      hsecond.takesElse⟩
  | .loop _ _ _ body, _, _, _, _, htarget, hformed, h => by
    rw [resolveStmt] at h
    obtain ⟨body', hbody, rfl⟩ := run_map_eq_ok.1 h
    obtain ⟨hstart, htest, hnext, hbody_formed⟩ := hformed
    have hreplaces := resolveStmt_formed hsettings body htarget hbody_formed hbody
    exact ⟨⟨hstart, htest, hnext, hreplaces.formed⟩, hreplaces.takesElse⟩
  | .loopIn _ _ body, _, _, _, _, htarget, hformed, h
  | .loopVarIn _ _ body, _, _, _, _, htarget, hformed, h => by
    rw [resolveStmt] at h
    obtain ⟨body', hbody, rfl⟩ := run_map_eq_ok.1 h
    obtain ⟨hitem, hitem', hcollection, hbody_formed⟩ := hformed
    have hreplaces := resolveStmt_formed hsettings body htarget hbody_formed hbody
    exact ⟨⟨hitem, hitem', hcollection, hreplaces.formed⟩, hreplaces.takesElse⟩
  | .while _ body, _, _, _, _, htarget, hformed, h
  | .withScope _ body, _, _, _, _, htarget, hformed, h
  | .label _ body, _, _, _, _, htarget, hformed, h => by
    rw [resolveStmt] at h
    obtain ⟨body', hbody, rfl⟩ := run_map_eq_ok.1 h
    have hreplaces := resolveStmt_formed hsettings body htarget hformed.2 hbody
    exact ⟨⟨hformed.1, hreplaces.formed⟩, hreplaces.takesElse⟩
  | .doWhile body _, _, _, _, _, htarget, hformed, h => by
    rw [resolveStmt] at h
    obtain ⟨body', hbody, rfl⟩ := run_map_eq_ok.1 h
    exact ⟨⟨(resolveStmt_formed hsettings body htarget hformed.1 hbody).formed, hformed.2⟩, rfl⟩
  | .switch _ clauses, _, _, _, _, htarget, hformed, h => by
    rw [resolveStmt] at h
    obtain ⟨clauses', hclauses, rfl⟩ := run_map_eq_ok.1 h
    obtain ⟨hsubject, hclauses_formed, hcount⟩ := hformed
    obtain ⟨hresolved, heq⟩ :=
      resolveClauses_formed hsettings clauses htarget hclauses_formed hclauses
    exact ⟨⟨hsubject, hresolved, heq ▸ hcount⟩, rfl⟩
  | .tryCatch body _ handler, _, _, _, _, htarget, hformed, h => by
    rw [resolveStmt] at h
    obtain ⟨body', k, hbody, h⟩ := run_bind_eq_ok.1 h
    obtain ⟨handler', hhandler, rfl⟩ := run_map_eq_ok.1 h
    obtain ⟨hbody_formed, hparam, hhandler_formed⟩ := hformed
    exact ⟨⟨resolveAll_formed hsettings body htarget hbody_formed hbody, hparam,
      resolveAll_formed hsettings handler htarget hhandler_formed hhandler⟩, rfl⟩
  | .tryFinally body finalizer, _, _, _, _, htarget, hformed, h => by
    rw [resolveStmt] at h
    obtain ⟨body', k, hbody, h⟩ := run_bind_eq_ok.1 h
    obtain ⟨finalizer', hfinalizer, rfl⟩ := run_map_eq_ok.1 h
    exact ⟨⟨resolveAll_formed hsettings body htarget hformed.1 hbody,
      resolveAll_formed hsettings finalizer htarget hformed.2 hfinalizer⟩, rfl⟩
  | .tryCatchFinally body _ handler finalizer, _, _, _, _, htarget, hformed, h => by
    rw [resolveStmt] at h
    obtain ⟨body', k, hbody, h⟩ := run_bind_eq_ok.1 h
    obtain ⟨handler', k', hhandler, h⟩ := run_bind_eq_ok.1 h
    obtain ⟨finalizer', hfinalizer, rfl⟩ := run_map_eq_ok.1 h
    obtain ⟨hbody_formed, hparam, hhandler_formed, hfinalizer_formed⟩ := hformed
    exact ⟨⟨resolveAll_formed hsettings body htarget hbody_formed hbody, hparam,
      resolveAll_formed hsettings handler htarget hhandler_formed hhandler,
      resolveAll_formed hsettings finalizer htarget hfinalizer_formed hfinalizer⟩, rfl⟩
  | .vars _, _, _, _, _, _, hformed, h | .empty, _, _, _, _, _, hformed, h
  | .continue _, _, _, _, _, _, hformed, h | .break _, _, _, _, _, _, hformed, h
  | .ret _, _, _, _, _, _, hformed, h | .throw _, _, _, _, _, _, hformed, h
  | .debugger, _, _, _, _, _, hformed, h | .func .., _, _, _, _, _, hformed, h => by
    simp only [resolveStmt, run_pure_eq_ok] at h
    rw [← h.1]
    exact ⟨hformed, rfl⟩
  | .expr e, target, out, n, m, htarget, hformed, h => by
    obtain ⟨he, hleads, hfunction⟩ := hformed
    by_cases hcall : ∃ id args, e = .call (.name id) args
    · obtain ⟨id, args, rfl⟩ := hcall
      obtain ⟨hname, hrank, hargs⟩ := he
      by_cases hid : id ∈ Marker.resolved
      · exact resolveStmt_reserved_formed hsettings hid htarget hargs h
      · by_cases hiterate : id = Marker.iterate
        · subst hiterate
          rw [resolveStmt_iterate] at h
          split at h
          case isFalse => cases h
          case isTrue hshape =>
            obtain ⟨collection, callbacks, rfl, -⟩ := exists_of_iterationShape hshape
            rw [resolveIteration] at h
            obtain ⟨args', hargs', rfl⟩ := run_map_eq_ok.1 h
            obtain ⟨callbacks', hcallbacks, rfl⟩ := run_map_eq_ok.1 hargs'
            have hrest := resolveIterators_formed hsettings callbacks hargs.2.2 hcallbacks
            have hcall :
                (Expr.call (.name Marker.iterate) (collection :: callbacks')).Formed .free :=
              ⟨hname, hrank, hargs.1, hargs.2.1, hrest⟩
            exact ⟨formed_push htarget hcall (Nat.le_add_left 1 13), rfl⟩
        · rw [resolveStmt_call settings target args hid hiterate] at h
          obtain ⟨args', hargs', rfl⟩ := run_map_eq_ok.1 h
          have hresolved := resolveCallbacks_formed hsettings args htarget hargs hargs'
          exact ⟨⟨⟨hname, hrank, hresolved⟩, rfl, rfl⟩, rfl⟩
    · simp only [not_exists] at hcall
      rw [resolveStmt_chain settings target hcall] at h
      obtain ⟨e', hchain, rfl⟩ := run_map_eq_ok.1 h
      have hresembles := resolveChain_formed hsettings e htarget he hchain
      exact ⟨⟨hresembles.formed, (hresembles.leads false).trans hleads,
        hresembles.isFunction.trans hfunction⟩, rfl⟩
termination_by t => sizeOf t
decreasing_by all_goals (subst_vars; simp +arith)

/-- A chain of calls. -/
theorem resolveChain_formed (hsettings : settings.Readable) : ∀ (e : Expr) {place : Place}
    {target : String} {out : Expr} {n m : Nat}, IsName target → e.Formed place →
    (resolveChain settings target e).run n = .ok (out, m) → Resembles place e out
  | e, place, target, out, n, m, htarget, hformed, h => by
    by_cases hcall : ∃ callee args, e = .call callee args
    · obtain ⟨callee, args, rfl⟩ := hcall
      obtain ⟨hcallee, hrank, hargs_formed⟩ := hformed
      by_cases hdot : ∃ owner field, callee = .dot owner field
      · obtain ⟨owner, field, rfl⟩ := hdot
        rw [resolveChain] at h
        obtain ⟨args', k, hargs, h⟩ := run_bind_eq_ok.1 h
        obtain ⟨owner', howner, rfl⟩ := run_map_eq_ok.1 h
        obtain ⟨howner_formed, howner_rank, hfield⟩ := hcallee
        have hchain := resolveChain_formed hsettings owner htarget howner_formed howner
        have hdot : (Expr.dot owner' field).Formed .free :=
          ⟨hchain.formed, hchain.rank ▸ howner_rank, hfield⟩
        have hrank' : 14 ≤ (Expr.dot owner' field).rank := hchain.rank ▸ hrank
        have hresolved := resolveCallbacks_formed hsettings args htarget hargs_formed hargs
        exact ⟨⟨hdot, hrank', hresolved⟩, rfl, fun _ => hchain.leads true, rfl⟩
      · simp only [not_exists] at hdot
        rw [resolveChain] at h
        obtain ⟨args', hargs, rfl⟩ := run_map_eq_ok.1 h
        · have hresolved := resolveCallbacks_formed hsettings args htarget hargs_formed hargs
          exact ⟨⟨hcallee, hrank, hresolved⟩, rfl, fun _ => rfl, rfl⟩
        · exact fun owner field heq => hdot owner field heq
    · simp only [not_exists] at hcall
      rw [resolveChain_other settings target hcall] at h
      obtain ⟨rfl, -⟩ := run_pure_eq_ok.1 h
      exact .refl hformed
termination_by t => sizeOf t
decreasing_by all_goals (subst_vars; simp +arith)

/-- The functions among arguments. -/
theorem resolveCallbacks_formed (hsettings : settings.Readable) : ∀ (args : List Expr)
    {target : String} {out : List Expr} {n m : Nat}, IsName target → FormedArgs args →
    (resolveCallbacks settings target args).run n = .ok (out, m) → FormedArgs out
  | [], _, _, _, _, _, _, h => by
    rw [resolveCallbacks] at h
    obtain ⟨rfl, -⟩ := run_pure_eq_ok.1 h
    trivial
  | arg :: rest, target, out, n, m, htarget, hformed, h => by
    obtain ⟨harg, hrank, hrest_formed⟩ := hformed
    by_cases hfunc : ∃ name params body, arg = .func name params body
    · obtain ⟨name, params, body, rfl⟩ := hfunc
      rw [resolveCallbacks] at h
      obtain ⟨body', k, hbody, h⟩ := run_bind_eq_ok.1 h
      obtain ⟨rest', hrest, rfl⟩ := run_map_eq_ok.1 h
      obtain ⟨hname, hparams, hbody_formed⟩ := harg
      exact ⟨⟨hname, hparams, resolveAll_formed hsettings body htarget hbody_formed hbody⟩, hrank,
        resolveCallbacks_formed hsettings rest htarget hrest_formed hrest⟩
    · simp only [not_exists] at hfunc
      rw [resolveCallbacks_cons settings target hfunc] at h
      obtain ⟨rest', hrest, rfl⟩ := run_map_eq_ok.1 h
      exact ⟨harg, hrank, resolveCallbacks_formed hsettings rest htarget hrest_formed hrest⟩
termination_by t => sizeOf t
decreasing_by all_goals (subst_vars; simp +arith)

/-- The functions of an iteration. -/
theorem resolveIterators_formed (hsettings : settings.Readable) : ∀ (callbacks : List Expr)
    {out : List Expr} {n m : Nat}, FormedArgs callbacks →
    (resolveIterators settings callbacks).run n = .ok (out, m) → FormedArgs out
  | [], _, _, _, _, h => by
    rw [resolveIterators] at h
    obtain ⟨rfl, -⟩ := run_pure_eq_ok.1 h
    trivial
  | arg :: rest, out, n, m, hformed, h => by
    by_cases hfunc : ∃ name params body, arg = .func name params body
    · obtain ⟨name, params, body, rfl⟩ := hfunc
      obtain ⟨⟨hname, hparams, hbody_formed⟩, hrank, hrest_formed⟩ := hformed
      rw [resolveIterators] at h
      obtain ⟨array, k, harray, h⟩ := run_bind_eq_ok.1 h
      obtain ⟨body', k', hbody, h⟩ := run_bind_eq_ok.1 h
      obtain ⟨rest', hrest, rfl⟩ := run_map_eq_ok.1 h
      cases harray
      have hchildren := (isArray_children n).isName
      exact ⟨⟨hname, hparams, formedAll_collectingBody hchildren
        (resolveAll_formed hsettings body hchildren hbody_formed hbody)⟩, hrank,
        resolveIterators_formed hsettings rest hrest_formed hrest⟩
    · simp only [not_exists] at hfunc
      rw [resolveIterators] at h
      · cases h
      · exact fun name params body heq => hfunc name params body heq
termination_by t => sizeOf t
decreasing_by all_goals (subst_vars; simp +arith)

/-- The clauses of a switch. -/
theorem resolveClauses_formed (hsettings : settings.Readable) : ∀ (clauses : List Clause)
    {target : String} {out : List Clause} {n m : Nat}, IsName target → FormedClauses clauses →
    (resolveClauses settings target clauses).run n = .ok (out, m) →
    FormedClauses out ∧ out.countP (·.isOtherwise) = clauses.countP (·.isOtherwise)
  | [], _, _, _, _, _, _, h => by
    rw [resolveClauses] at h
    obtain ⟨rfl, -⟩ := run_pure_eq_ok.1 h
    exact ⟨trivial, rfl⟩
  | .on label body :: rest, target, out, n, m, htarget, hformed, h => by
    rw [resolveClauses] at h
    obtain ⟨body', k, hbody, h⟩ := run_bind_eq_ok.1 h
    obtain ⟨rest', hrest, rfl⟩ := run_map_eq_ok.1 h
    obtain ⟨hlabel, hbody_formed, hrest_formed⟩ := hformed
    obtain ⟨hrest', hcount⟩ := resolveClauses_formed hsettings rest htarget hrest_formed hrest
    exact ⟨⟨hlabel, resolveAll_formed hsettings body htarget hbody_formed hbody, hrest'⟩, hcount⟩
  | .otherwise body :: rest, target, out, n, m, htarget, hformed, h => by
    rw [resolveClauses] at h
    obtain ⟨body', k, hbody, h⟩ := run_bind_eq_ok.1 h
    obtain ⟨rest', hrest, rfl⟩ := run_map_eq_ok.1 h
    obtain ⟨hrest', hcount⟩ := resolveClauses_formed hsettings rest htarget hformed.2 hrest
    refine ⟨⟨resolveAll_formed hsettings body htarget hformed.1 hbody, hrest'⟩, ?_⟩
    rw [List.countP_cons_of_pos rfl, List.countP_cons_of_pos rfl, hcount]
termination_by t => sizeOf t
decreasing_by all_goals (subst_vars; simp +arith)

end

/-- The render function of a program of the grammar is of the grammar. -/
theorem formedAll_resolve (hsettings : settings.Readable) {program result : Program}
    (hformed : FormedAll program) (h : resolve settings program = .ok result) :
    FormedAll result := by
  obtain ⟨body, m, hbody, rfl, -⟩ := resolve_eq_ok_iff.1 h
  have hroot : IsName "$children0" := (isArray_children 0).isName
  exact ⟨formed_renderFunction hsettings hroot
    (resolveAll_formed hsettings program hroot hformed hbody), trivial⟩

end

end Espalier.Render
