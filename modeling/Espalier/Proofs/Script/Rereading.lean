import Espalier.Proofs.Script.Statements

/-!
# Reading a program from its tokens

The parts are put together over the trees of the grammar. Main statement: `parse_of_spells`, a
program of the grammar is read back from any text whose tokens stand for the tokens of the program.
-/

namespace Espalier.Script

namespace Reader

/-- The expression is read by the readers of all levels that it may stand at. -/
structure ReadsExpr (place : Place) (e : Expr) : Prop where
  leftSide : 13 ≤ e.rank → ReadsLeftSide e
  operators : 2 ≤ e.rank → ReadsOperators place e
  assignment : 1 ≤ e.rank → ReadsAssignment place e
  whole : ReadsWhole place e
  body : ∀ name params body, e.leftmost = .func name params body → ReadsStatements body

section
variable {place : Place} {e : Expr}

theorem ReadsExpr.of_assignment (h : ReadsAssignment place e) (hrank : e.rank = 1)
    (hbody : ∀ name params body, e.leftmost = .func name params body → ReadsStatements body) :
    ReadsExpr place e where
  leftSide hleft := absurd hleft (by omega)
  operators hoperators := absurd hoperators (by omega)
  assignment _ := h
  whole := h.readsWhole (Nat.le_of_eq hrank.symm)
  body := hbody

theorem ReadsExpr.of_operators (h : ReadsOperators place e) (hformed : e.Formed place)
    (hlow : 2 ≤ e.rank) (hhigh : e.rank ≤ 12)
    (hbody : ∀ name params body, e.leftmost = .func name params body → ReadsStatements body) :
    ReadsExpr place e where
  leftSide hleft := absurd hleft (by omega)
  operators _ := h
  assignment _ := h.readsAssignment hformed hlow
  whole := (h.readsAssignment hformed hlow).readsWhole (by omega)
  body := hbody

theorem ReadsExpr.of_leftSide (h : ReadsLeftSide e) (hformed : e.Formed place)
    (hrank : 13 ≤ e.rank)
    (hbody : ∀ name params body, e.leftmost = .func name params body → ReadsStatements body) :
    ReadsExpr place e where
  leftSide _ := h
  operators _ := h.readsOperators hrank
  assignment _ := (h.readsOperators hrank).readsAssignment hformed (by omega)
  whole := ((h.readsOperators hrank).readsAssignment hformed (by omega)).readsWhole (by omega)
  body := hbody

end

mutual

theorem readsExpr : ∀ {e : Expr} {place : Place}, e.Formed place → e.linked = true →
    ReadsExpr place e
  | .name id, _, hformed, _ =>
    .of_leftSide (readsLeftSide_name id) hformed (by simp [Expr.rank]) nofun
  | .this, _, hformed, _ => .of_leftSide readsLeftSide_this hformed (by simp [Expr.rank]) nofun
  | .null, _, hformed, _ => .of_leftSide readsLeftSide_null hformed (by simp [Expr.rank]) nofun
  | .bool value, _, hformed, _ =>
    .of_leftSide (readsLeftSide_bool value) hformed (by simp [Expr.rank]) nofun
  | .number text, _, hformed, _ =>
    .of_leftSide (readsLeftSide_number text) hformed (by simp [Expr.rank]) nofun
  | .string text, _, hformed, _ =>
    .of_leftSide (readsLeftSide_string text) hformed (by simp [Expr.rank]) nofun
  | .regex text, _, hformed, _ =>
    .of_leftSide (readsLeftSide_regex text) hformed (by simp [Expr.rank]) nofun
  | .array items, _, hformed, hlinked =>
    .of_leftSide (readsLeftSide_array hformed (readsItems hformed hlinked)) hformed
      (by simp [Expr.rank]) nofun
  | .object properties, _, hformed, hlinked =>
    .of_leftSide (readsLeftSide_object (readsProperties hformed hlinked)) hformed
      (by simp [Expr.rank]) nofun
  | .group inner, _, hformed, hlinked =>
    .of_leftSide (readsLeftSide_group (readsExpr hformed.1 hlinked).whole hformed.2) hformed
      (by simp [Expr.rank]) nofun
  | .func name params body, _, hformed, hlinked => by
    have hbody : ReadsStatements body := readsStmts hformed.2.2 hlinked
    refine .of_leftSide (readsLeftSide_func hbody) hformed (by simp [Expr.rank]) ?_
    intro _ _ _ heq
    cases heq
    exact hbody
  | .dot owner field, _, hformed, hlinked => by
    have howner := readsExpr hformed.1 hlinked
    have hrank : 14 ≤ owner.rank := hformed.2.1
    exact .of_leftSide (readsLeftSide_dot (howner.leftSide (by omega)) hrank field) hformed
      (by rw [Expr.rank]; omega) howner.body
  | .index owner position, _, hformed, hlinked => by
    obtain ⟨hlowner, hlposition⟩ := Bool.and_eq_true_iff.1 hlinked
    have howner := readsExpr hformed.1 hlowner
    have hrank : 14 ≤ owner.rank := hformed.2.1
    exact .of_leftSide (readsLeftSide_index (howner.leftSide (by omega)) hrank
      (readsExpr hformed.2.2 hlposition).whole) hformed (by rw [Expr.rank]; omega) howner.body
  | .call callee args, _, hformed, hlinked => by
    obtain ⟨hlcallee, hlargs⟩ := Bool.and_eq_true_iff.1 hlinked
    have hcallee := readsExpr hformed.1 hlcallee
    have hrank : 14 ≤ callee.rank := hformed.2.1
    exact .of_leftSide (readsLeftSide_call (hcallee.leftSide (by omega)) hrank
      (readsArgs hformed.2.2 hlargs)) hformed (by simp [Expr.rank]) hcallee.body
  | .new callee args, _, hformed, hlinked => by
    obtain ⟨hlcallee, hlargs⟩ := Bool.and_eq_true_iff.1 hlinked
    have hcallee := readsExpr hformed.1 hlcallee
    have hrank : 15 ≤ callee.rank := hformed.2.1
    exact .of_leftSide (readsLeftSide_new (hcallee.leftSide (by omega)) hrank
      (readsArgs hformed.2.2 hlargs)) hformed (by simp [Expr.rank]) nofun
  | .newBare callee, _, hformed, hlinked => by
    have hcallee := readsExpr hformed.1 hlinked
    have hrank : callee.rank = 13 ∨ 15 ≤ callee.rank := hformed.2
    exact .of_leftSide (readsLeftSide_newBare (hcallee.leftSide (by omega)) (by omega)) hformed
      (by simp [Expr.rank]) nofun
  | .unary op operand, _, hformed, hlinked => by
    have hoperand := readsExpr hformed.1 hlinked
    have hrank : 12 ≤ operand.rank := hformed.2
    exact .of_operators (readsOperators_unary (hoperand.operators (by omega)) hrank op) hformed
      (by simp [Expr.rank]) (by simp [Expr.rank]) nofun
  | .step operand op, _, hformed, hlinked => by
    have hoperand := readsExpr hformed.1 hlinked
    exact .of_operators (readsOperators_step (hoperand.leftSide hformed.2) op) hformed
      (by simp [Expr.rank]) (by simp [Expr.rank]) hoperand.body
  | .binary op left right, _, hformed, hlinked => by
    obtain ⟨hlleft, hlright⟩ := Bool.and_eq_true_iff.1 hlinked
    have hlevel : 1 ≤ op.level ∧ op.level ≤ 10 := by cases op <;> decide
    have hleft := readsExpr hformed.1 hlleft
    have hlrank : op.level < left.rank := hformed.2.1
    have hright := readsExpr hformed.2.2.1 hlright
    have hrrank : op.level + 1 < right.rank := hformed.2.2.2.1
    exact .of_operators (readsOperators_binary (hleft.operators (by omega))
      (hright.operators (by omega)) hformed) hformed (by rw [Expr.rank]; omega)
      (by rw [Expr.rank]; omega) hleft.body
  | .assign op left right, _, hformed, hlinked => by
    obtain ⟨hlleft, hlright⟩ := Bool.and_eq_true_iff.1 hlinked
    have hleft := readsExpr hformed.1 hlleft
    exact .of_assignment (readsAssignment_assign (hleft.leftSide hformed.2.1)
      ((readsExpr hformed.2.2.1 hlright).assignment hformed.2.2.2)) rfl hleft.body
  | .cond test yes no, _, hformed, hlinked => by
    obtain ⟨hltest, hlinked⟩ := Bool.and_eq_true_iff.1 hlinked
    obtain ⟨hlyes, hlno⟩ := Bool.and_eq_true_iff.1 hlinked
    obtain ⟨hftest, hrank, hfyes, hryes, hfno, hrno⟩ := hformed
    have htest := readsExpr hftest hltest
    exact .of_assignment (readsAssignment_cond (htest.operators hrank) hftest hrank
      ((readsExpr hfyes hlyes).assignment hryes) ((readsExpr hfno hlno).assignment hrno)) rfl
      htest.body
  | .comma left right, _, hformed, hlinked => by
    obtain ⟨hlleft, hlright⟩ := Bool.and_eq_true_iff.1 hlinked
    have hleft := readsExpr hformed.1 hlleft
    exact {
      leftSide := nofun
      operators := nofun
      assignment := nofun
      whole := readsWhole_comma hleft.whole
        ((readsExpr hformed.2.1 hlright).assignment hformed.2.2)
      body := hleft.body }

theorem readsArgs : ∀ {es : List Expr}, FormedArgs es → linkedExprs es = true →
    ∀ e ∈ es, ReadsAssignment .free e
  | [], _, _ => nofun
  | e :: es, hformed, hlinked => by
    obtain ⟨hle, hles⟩ := Bool.and_eq_true_iff.1 hlinked
    exact List.forall_mem_cons.2
      ⟨(readsExpr hformed.1 hle).assignment hformed.2.1, readsArgs hformed.2.2 hles⟩

theorem readsOptional : ∀ {e : Option Expr}, FormedOptional e → linkedOptional e = true →
    ∀ a ∈ e, ReadsWhole .free a
  | none, _, _ => nofun
  | some e, hformed, hlinked => by
    rintro a ⟨⟩
    exact (readsExpr hformed hlinked).whole

theorem readsItems : ∀ {items : List Item}, FormedItems items → linkedItems items = true →
    ∀ e, .value e ∈ items → ReadsAssignment .free e
  | [], _, _ => nofun
  | .elision _ :: items, hformed, hlinked => by
    intro e he
    exact readsItems hformed.2.2 hlinked e ((List.mem_cons.1 he).resolve_left nofun)
  | .value e :: items, hformed, hlinked => by
    obtain ⟨hle, hlitems⟩ := Bool.and_eq_true_iff.1 hlinked
    intro a ha
    obtain heq | ha := List.mem_cons.1 ha
    · cases heq
      exact (readsExpr hformed.1 hle).assignment hformed.2.1
    · exact readsItems hformed.2.2 hlitems a ha

theorem readsProperties : ∀ {properties : List Property}, FormedProperties properties →
    linkedProperties properties = true → ∀ p ∈ properties, ReadsProperty p
  | [], _, _ => nofun
  | .field key value :: properties, hformed, hlinked => by
    obtain ⟨hlp, hlproperties⟩ := Bool.and_eq_true_iff.1 hlinked
    exact List.forall_mem_cons.2 ⟨(readsExpr hformed.1.2.1 hlp).assignment hformed.1.2.2,
      readsProperties hformed.2 hlproperties⟩
  | .getter key body :: properties, hformed, hlinked => by
    obtain ⟨hlp, hlproperties⟩ := Bool.and_eq_true_iff.1 hlinked
    exact List.forall_mem_cons.2 ⟨readsStmts hformed.1.2.2 hlp,
      readsProperties hformed.2 hlproperties⟩
  | .setter key param body :: properties, hformed, hlinked => by
    obtain ⟨hlp, hlproperties⟩ := Bool.and_eq_true_iff.1 hlinked
    exact List.forall_mem_cons.2 ⟨readsStmts hformed.1.2.2.2 hlp,
      readsProperties hformed.2 hlproperties⟩

theorem readsBinding : ∀ {b : Binding} {place : Place}, b.Formed place → b.linked = true →
    ReadsBinding place b
  | .bare _, _, _, _ => trivial
  | .init _ _, _, hformed, hlinked => (readsExpr hformed.2.1 hlinked).assignment hformed.2.2

theorem readsBindings : ∀ {bs : List Binding} {place : Place}, FormedBindings place bs →
    linkedBindings bs = true → ∀ b ∈ bs, ReadsBinding place b
  | [], _, _, _ => nofun
  | b :: bs, _, hformed, hlinked => by
    obtain ⟨hlb, hlbs⟩ := Bool.and_eq_true_iff.1 hlinked
    exact List.forall_mem_cons.2 ⟨readsBinding hformed.1 hlb, readsBindings hformed.2 hlbs⟩

theorem readsStart : ∀ {start : LoopStart}, start.Formed → start.linked = true →
    ReadsStart start
  | .nothing, _, _ => trivial
  | .vars _, hformed, hlinked => ⟨hformed.1, readsBindings hformed.2 hlinked⟩
  | .expr _, hformed, hlinked => ⟨(readsExpr hformed hlinked).whole, hformed⟩

theorem readsStmt : ∀ {s : Stmt}, s.Formed → s.linked = true → ReadsStatement s
  | .block body, hformed, hlinked => readsStatement_block (readsStmts hformed hlinked)
  | .vars bs, hformed, hlinked =>
    readsStatement_vars hformed.1 (readsBindings hformed.2 hlinked)
  | .empty, _, _ => readsStatement_empty
  | .debugger, _, _ => readsStatement_debugger
  | .expr e, hformed, hlinked => by
    have he := readsExpr hformed.1 hlinked
    exact readsStatement_expr he.whole hformed he.body
  | .ifThen test yes, hformed, hlinked => by
    obtain ⟨hltest, hlyes⟩ := Bool.and_eq_true_iff.1 hlinked
    exact readsStatement_ifThen (readsExpr hformed.1 hltest).whole (readsStmt hformed.2 hlyes)
  | .ifElse test yes no, hformed, hlinked => by
    obtain ⟨hltest, hlinked⟩ := Bool.and_eq_true_iff.1 hlinked
    obtain ⟨hlyes, hlno⟩ := Bool.and_eq_true_iff.1 hlinked
    obtain ⟨htest, hyes, hopen, hno⟩ := hformed
    exact readsStatement_ifElse (readsExpr htest hltest).whole (readsStmt hyes hlyes)
      (readsStmt hno hlno) hopen
  | .loop start test next body, hformed, hlinked => by
    obtain ⟨hlstart, hlinked⟩ := Bool.and_eq_true_iff.1 hlinked
    obtain ⟨hltest, hlinked⟩ := Bool.and_eq_true_iff.1 hlinked
    obtain ⟨hlnext, hlbody⟩ := Bool.and_eq_true_iff.1 hlinked
    obtain ⟨hstart, htest, hnext, hbody⟩ := hformed
    exact readsStatement_loop (readsStart hstart hlstart) (readsOptional htest hltest)
      (readsOptional hnext hlnext) (readsStmt hbody hlbody)
  | .loopIn item collection body, hformed, hlinked => by
    obtain ⟨hlitem, hlinked⟩ := Bool.and_eq_true_iff.1 hlinked
    obtain ⟨hlcollection, hlbody⟩ := Bool.and_eq_true_iff.1 hlinked
    obtain ⟨hitem, hrank, hcollection, hbody⟩ := hformed
    exact readsStatement_loopIn ((readsExpr hitem hlitem).leftSide hrank)
      (readsExpr hcollection hlcollection).whole (readsStmt hbody hlbody)
  | .loopVarIn item collection body, hformed, hlinked => by
    obtain ⟨hlitem, hlinked⟩ := Bool.and_eq_true_iff.1 hlinked
    obtain ⟨hlcollection, hlbody⟩ := Bool.and_eq_true_iff.1 hlinked
    obtain ⟨hitem, hends, hcollection, hbody⟩ := hformed
    exact readsStatement_loopVarIn (readsBinding hitem hlitem) hends
      (readsExpr hcollection hlcollection).whole (readsStmt hbody hlbody)
  | .while test body, hformed, hlinked => by
    obtain ⟨hltest, hlbody⟩ := Bool.and_eq_true_iff.1 hlinked
    exact readsStatement_while (readsExpr hformed.1 hltest).whole (readsStmt hformed.2 hlbody)
  | .doWhile body test, hformed, hlinked => by
    obtain ⟨hltest, hlbody⟩ := Bool.and_eq_true_iff.1 hlinked
    exact readsStatement_doWhile (readsStmt hformed.1 hlbody) (readsExpr hformed.2 hltest).whole
  | .continue label, _, _ => readsStatement_continue label
  | .break label, _, _ => readsStatement_break label
  | .ret value, hformed, hlinked => readsStatement_ret (readsOptional hformed hlinked)
  | .withScope scope body, hformed, hlinked => by
    obtain ⟨hlscope, hlbody⟩ := Bool.and_eq_true_iff.1 hlinked
    exact readsStatement_withScope (readsExpr hformed.1 hlscope).whole (readsStmt hformed.2 hlbody)
  | .label _ body, hformed, hlinked => readsStatement_label (readsStmt hformed.2 hlinked)
  | .switch subject clauses, hformed, hlinked => by
    obtain ⟨hlsubject, hlclauses⟩ := Bool.and_eq_true_iff.1 hlinked
    obtain ⟨hsubject, hclauses, hcount⟩ := hformed
    exact readsStatement_switch (readsExpr hsubject hlsubject).whole
      (readsClauses hclauses hlclauses) hcount
  | .throw value, hformed, hlinked => readsStatement_throw (readsExpr hformed hlinked).whole
  | .tryCatch body param handler, hformed, hlinked => by
    obtain ⟨hlbody, hlhandler⟩ := Bool.and_eq_true_iff.1 hlinked
    exact readsStatement_tryCatch (readsStmts hformed.1 hlbody)
      (readsStmts hformed.2.2 hlhandler)
  | .tryFinally body finalizer, hformed, hlinked => by
    obtain ⟨hlbody, hlfinalizer⟩ := Bool.and_eq_true_iff.1 hlinked
    exact readsStatement_tryFinally (readsStmts hformed.1 hlbody)
      (readsStmts hformed.2 hlfinalizer)
  | .tryCatchFinally body param handler finalizer, hformed, hlinked => by
    obtain ⟨hlbody, hlinked⟩ := Bool.and_eq_true_iff.1 hlinked
    obtain ⟨hlhandler, hlfinalizer⟩ := Bool.and_eq_true_iff.1 hlinked
    obtain ⟨hbody, -, hhandler, hfinalizer⟩ := hformed
    exact readsStatement_tryCatchFinally (readsStmts hbody hlbody)
      (readsStmts hhandler hlhandler) (readsStmts hfinalizer hlfinalizer)
  | .func _ _ body, hformed, hlinked => readsStatement_func (readsStmts hformed.2.2 hlinked)

theorem readsStmts : ∀ {ss : List Stmt}, FormedAll ss → linkedAll ss = true → ReadsStatements ss
  | [], _, _ => readsStatements_nil
  | s :: ss, hformed, hlinked => by
    obtain ⟨hls, hlinked⟩ := Bool.and_eq_true_iff.1 hlinked
    obtain ⟨hplain, hlss⟩ := Bool.and_eq_true_iff.1 hlinked
    refine readsStatements_cons (readsStmt hformed.1 hls) (readsStmts hformed.2 hlss) ?_
    intro hfunction
    rwa [hfunction] at hplain

theorem readsClauses : ∀ {cs : List Clause}, FormedClauses cs → linkedClauses cs = true →
    ∀ c ∈ cs, ReadsClause c
  | [], _, _ => nofun
  | .on label body :: cs, hformed, hlinked => by
    obtain ⟨hllabel, hlinked⟩ := Bool.and_eq_true_iff.1 hlinked
    obtain ⟨hlbody, hlcs⟩ := Bool.and_eq_true_iff.1 hlinked
    obtain ⟨hlabel, hbody, hcs⟩ := hformed
    exact List.forall_mem_cons.2
      ⟨⟨(readsExpr hlabel hllabel).whole, readsStmts hbody hlbody⟩, readsClauses hcs hlcs⟩
  | .otherwise body :: cs, hformed, hlinked => by
    obtain ⟨hlbody, hlcs⟩ := Bool.and_eq_true_iff.1 hlinked
    exact List.forall_mem_cons.2 ⟨readsStmts hformed.1 hlbody, readsClauses hformed.2 hlcs⟩

end

end Reader

/-- A program is read back from a text that spells its tokens. -/
theorem parse_of_spells {program : Program} (hformed : FormedAll program)
    (hlinked : linkedAll program = true) {source : String}
    (hspells : Spells false (tokenize source) (stmtKinds program ++ [.eof]))
    (hlength : (stmtKinds program).length ≤ source.length) : parse source = some program := by
  have hfuel : 16 * (stmtKinds program).length + 1 ≤ readingDepth source.length := by
    rw [readingDepth]
    omega
  obtain ⟨_, rest, hrest, hrun⟩ :=
    Reader.readsStmts hformed hlinked _ .eof [] hfuel rfl false _ hspells
  obtain ⟨t, others, rfl, ht, hothers⟩ := hrest.cons rfl
  cases hothers
  rw [parse, parseTokens, hrun]
  obtain ⟨kind, afterLineEnd, retry⟩ := t
  cases ht
  rfl

end Espalier.Script
