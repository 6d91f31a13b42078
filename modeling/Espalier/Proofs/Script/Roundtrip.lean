import Espalier.Proofs.Script.Legible
import Espalier.Proofs.Script.Rereading

/-!
# Printed programs are read back

The tokens of a tree of the grammar are tokens of the lexer (`soundAll_stmts`), and its stream
writes them with seams between its texts. So the text that a careful style prints is read back as
the program it was printed from, if the tokens are legible in the style and no function stands
directly before a regular expression. Main statements: `parse_pretty` and `parse_minified`.
-/

namespace Espalier.Script

open Reader (bracedKinds paramKinds moreNameKinds)

/-! ## Tokens of the grammar -/

/-- All of the tokens are tokens of the lexer. -/
def SoundAll (ks : List TokenKind) : Prop :=
  ∀ kind ∈ ks, kind.Sound

/-- The token is a mark or a word of the language. -/
def TokenKind.isFixed : TokenKind → Bool
  | .mark m => m ∈ Mark.all
  | .keyword word => word ∈ Keyword.all
  | .getter | .setter => true
  | _ => false

section
variable {kind : TokenKind} {ks more : List TokenKind}

theorem SoundAll.nil : SoundAll [] := nofun

theorem SoundAll.cons (h : kind.Sound) (hks : SoundAll ks) : SoundAll (kind :: ks) :=
  List.forall_mem_cons.2 ⟨h, hks⟩

theorem SoundAll.append (h : SoundAll ks) (hmore : SoundAll more) : SoundAll (ks ++ more) :=
  List.forall_mem_append.2 ⟨h, hmore⟩

theorem SoundAll.fixed (h : kind.isFixed = true) (hks : SoundAll ks) : SoundAll (kind :: ks) := by
  refine .cons ?_ hks
  cases kind with
  | mark m =>
    have hm : m ∈ Mark.all := of_decide_eq_true h
    exact hm
  | keyword word =>
    have hword : word ∈ Keyword.all := of_decide_eq_true h
    exact hword
  | getter | setter => trivial
  | _ => cases h

theorem SoundAll.braced (h : SoundAll ks) : SoundAll (bracedKinds ks) :=
  .fixed rfl (h.append (.fixed rfl .nil))

theorem SoundAll.replicate {count : Nat} (h : kind.isFixed = true) :
    SoundAll (List.replicate count kind) := by
  induction count with
  | zero => exact .nil
  | succ count ih => exact .fixed h ih

theorem SoundAll.commaUnless {b : Bool} :
    SoundAll (if b then [] else [.mark .comma]) := by
  cases b
  · exact .fixed rfl .nil
  · exact .nil

theorem IsName.sound {id : String} (h : IsName id) : (TokenKind.name id).Sound :=
  TokenKind.Genuine.sound h

theorem soundAll_nameKinds {name : Option String} (h : ∀ id ∈ name, IsName id) :
    SoundAll (nameKinds name) := by
  cases name with
  | none => exact .nil
  | some id => exact .cons (h id rfl).sound .nil

theorem soundAll_moreNameKinds {names : List String} (h : ∀ id ∈ names, IsName id) :
    SoundAll (moreNameKinds names) := by
  induction names with
  | nil => exact .nil
  | cons name names ih =>
    obtain ⟨hname, hnames⟩ := List.forall_mem_cons.1 h
    exact .fixed rfl (.cons hname.sound (ih hnames))

theorem soundAll_paramKinds {names : List String} (h : ∀ id ∈ names, IsName id) :
    SoundAll (paramKinds names) := by
  cases names with
  | nil => exact .fixed rfl (.fixed rfl .nil)
  | cons name names =>
    obtain ⟨hname, hnames⟩ := List.forall_mem_cons.1 h
    exact .fixed rfl (.cons hname.sound ((soundAll_moreNameKinds hnames).append (.fixed rfl .nil)))

end

theorem BinaryOp.isFixed_kind (op : BinaryOp) : op.kind.isFixed = true := by
  cases op <;> decide

theorem UnaryOp.isFixed_kind (op : UnaryOp) : op.kind.isFixed = true := by
  cases op <;> decide

theorem StepOp.isFixed_kind (op : StepOp) : op.kind.isFixed = true := by
  cases op <;> decide

theorem AssignOp.isFixed_kind (op : AssignOp) : (TokenKind.mark (.assign op)).isFixed = true := by
  cases op <;> decide

theorem isFixed_boolKind (value : Bool) : (boolKind value).isFixed = true := by
  cases value <;> decide

mutual

theorem Expr.soundAll : ∀ {e : Expr} {place : Place}, e.Formed place → SoundAll e.kinds
  | .name _, _, h => .cons h.sound .nil
  | .this, _, _ | .null, _, _ => .fixed rfl .nil
  | .bool value, _, _ => .fixed (isFixed_boolKind value) .nil
  | .number _, _, h | .string _, _, h | .regex _, _, h => .cons (TokenKind.Genuine.sound h) .nil
  | .array _, _, h => .fixed rfl ((soundAll_items h).append (.fixed rfl .nil))
  | .object _, _, h => .fixed rfl ((soundAll_properties h).append (.fixed rfl .nil))
  | .group _, _, h => .fixed rfl ((Expr.soundAll h.1).append (.fixed rfl .nil))
  | .func _ _ _, _, h =>
    .fixed rfl ((soundAll_nameKinds h.1).append
      ((soundAll_paramKinds h.2.1).append (soundAll_stmts h.2.2).braced))
  | .dot _ _, _, h =>
    (Expr.soundAll h.1).append (.fixed rfl (.cons (TokenKind.Genuine.sound h.2.2) .nil))
  | .index _ _, _, h =>
    (Expr.soundAll h.1).append (.fixed rfl ((Expr.soundAll h.2.2).append (.fixed rfl .nil)))
  | .call _ _, _, h => (Expr.soundAll h.1).append (.fixed rfl (soundAll_args h.2.2))
  | .new _ _, _, h =>
    .fixed rfl ((Expr.soundAll h.1).append (.fixed rfl (soundAll_args h.2.2)))
  | .newBare _, _, h => .fixed rfl (Expr.soundAll h.1)
  | .unary op _, _, h => .fixed op.isFixed_kind (Expr.soundAll h.1)
  | .step _ op, _, h => (Expr.soundAll h.1).append (.fixed op.isFixed_kind .nil)
  | .binary op _ _, _, h =>
    (Expr.soundAll h.1).append (.fixed op.isFixed_kind (Expr.soundAll h.2.2.1))
  | .assign op _ _, _, h =>
    (Expr.soundAll h.1).append (.fixed op.isFixed_kind (Expr.soundAll h.2.2.1))
  | .cond _ _ _, _, h =>
    (Expr.soundAll h.1).append (.fixed rfl
      ((Expr.soundAll h.2.2.1).append (.fixed rfl (Expr.soundAll h.2.2.2.2.1))))
  | .comma _ _, _, h => (Expr.soundAll h.1).append (.fixed rfl (Expr.soundAll h.2.1))

theorem soundAll_args : ∀ {es : List Expr}, FormedArgs es → SoundAll (argKinds es)
  | [], _ => .fixed rfl .nil
  | _ :: _, h => (Expr.soundAll h.1).append (soundAll_moreArgs h.2.2)

theorem soundAll_moreArgs : ∀ {es : List Expr}, FormedArgs es → SoundAll (moreArgKinds es)
  | [], _ => .fixed rfl .nil
  | _ :: _, h => .fixed rfl ((Expr.soundAll h.1).append (soundAll_moreArgs h.2.2))

theorem soundAll_optional : ∀ {e : Option Expr}, FormedOptional e → SoundAll (optionalKinds e)
  | none, _ => .nil
  | some _, h => Expr.soundAll h

theorem soundAll_items : ∀ {items : List Item}, FormedItems items → SoundAll (itemKinds items)
  | [], _ => .nil
  | .elision _ :: _, h => (SoundAll.replicate rfl).append (soundAll_items h.2.2)
  | .value _ :: _, h => ((Expr.soundAll h.1).append .commaUnless).append (soundAll_items h.2.2)

theorem Property.soundAll : ∀ {p : Property}, p.Formed → SoundAll p.kinds
  | .field _ _, h => .cons h.1.sound (.fixed rfl (Expr.soundAll h.2.1))
  | .getter _ _, h =>
    .fixed rfl (.cons h.1.sound (.fixed rfl (.fixed rfl (soundAll_stmts h.2.2).braced)))
  | .setter _ _ _, h =>
    .fixed rfl (.cons h.1.sound (.fixed rfl (.cons h.2.2.1.sound
      (.fixed rfl (soundAll_stmts h.2.2.2).braced))))

theorem soundAll_properties : ∀ {properties : List Property}, FormedProperties properties →
    SoundAll (propertyKinds properties)
  | [], _ => .nil
  | _ :: _, h => ((Property.soundAll h.1).append .commaUnless).append (soundAll_properties h.2)

theorem Binding.soundAll : ∀ {b : Binding} {place : Place}, b.Formed place → SoundAll b.kinds
  | .bare _, _, h => .cons h.sound .nil
  | .init _ _, _, h => .cons h.1.sound (.fixed rfl (Expr.soundAll h.2.1))

theorem soundAll_bindings : ∀ {bs : List Binding} {place : Place}, FormedBindings place bs →
    SoundAll (bindingKinds bs)
  | [], _, _ => .nil
  | _ :: _, _, h => ((Binding.soundAll h.1).append .commaUnless).append (soundAll_bindings h.2)

theorem LoopStart.soundAll : ∀ {start : LoopStart}, start.Formed → SoundAll start.kinds
  | .nothing, _ => .fixed rfl .nil
  | .vars _, h => .fixed rfl ((soundAll_bindings h.2).append (.fixed rfl .nil))
  | .expr _, h => (Expr.soundAll h).append (.fixed rfl .nil)

theorem Stmt.soundAll : ∀ {s : Stmt}, s.Formed → SoundAll s.kinds
  | .block _, h => (soundAll_stmts h).braced
  | .vars _, h => .fixed rfl ((soundAll_bindings h.2).append (.fixed rfl .nil))
  | .empty, _ => .fixed rfl .nil
  | .debugger, _ => .fixed rfl (.fixed rfl .nil)
  | .expr _, h => (Expr.soundAll h.1).append (.fixed rfl .nil)
  | .ifThen _ _, h =>
    .fixed rfl (.fixed rfl ((Expr.soundAll h.1).append (.fixed rfl (Stmt.soundAll h.2))))
  | .ifElse _ _ _, h =>
    .fixed rfl (.fixed rfl ((Expr.soundAll h.1).append (.fixed rfl
      ((Stmt.soundAll h.2.1).append (.fixed rfl (Stmt.soundAll h.2.2.2))))))
  | .loop _ _ _ _, h =>
    .fixed rfl (.fixed rfl ((LoopStart.soundAll h.1).append
      ((soundAll_optional h.2.1).append (.fixed rfl
        ((soundAll_optional h.2.2.1).append (.fixed rfl (Stmt.soundAll h.2.2.2)))))))
  | .loopIn _ _ _, h =>
    .fixed rfl (.fixed rfl ((Expr.soundAll h.1).append (.fixed rfl
      ((Expr.soundAll h.2.2.1).append (.fixed rfl (Stmt.soundAll h.2.2.2))))))
  | .loopVarIn _ _ _, h =>
    .fixed rfl (.fixed rfl (.fixed rfl ((Binding.soundAll h.1).append (.fixed rfl
      ((Expr.soundAll h.2.2.1).append (.fixed rfl (Stmt.soundAll h.2.2.2)))))))
  | .while _ _, h =>
    .fixed rfl (.fixed rfl ((Expr.soundAll h.1).append (.fixed rfl (Stmt.soundAll h.2))))
  | .doWhile _ _, h =>
    .fixed rfl ((Stmt.soundAll h.1).append (.fixed rfl (.fixed rfl
      ((Expr.soundAll h.2).append (.fixed rfl (.fixed rfl .nil))))))
  | .continue _, h | .break _, h => .fixed rfl ((soundAll_nameKinds h).append (.fixed rfl .nil))
  | .ret _, h => .fixed rfl ((soundAll_optional h).append (.fixed rfl .nil))
  | .withScope _ _, h =>
    .fixed rfl (.fixed rfl ((Expr.soundAll h.1).append (.fixed rfl (Stmt.soundAll h.2))))
  | .label _ _, h => .cons h.1.sound (.fixed rfl (Stmt.soundAll h.2))
  | .switch _ _, h =>
    .fixed rfl (.fixed rfl
      ((Expr.soundAll h.1).append (.fixed rfl (soundAll_clauses h.2.1).braced)))
  | .throw _, h => .fixed rfl ((Expr.soundAll h).append (.fixed rfl .nil))
  | .tryCatch _ _ _, h =>
    .fixed rfl ((soundAll_stmts h.1).braced.append (.fixed rfl (.fixed rfl (.cons h.2.1.sound
      (.fixed rfl (soundAll_stmts h.2.2).braced)))))
  | .tryFinally _ _, h =>
    .fixed rfl ((soundAll_stmts h.1).braced.append (.fixed rfl (soundAll_stmts h.2).braced))
  | .tryCatchFinally _ _ _ _, h =>
    .fixed rfl ((soundAll_stmts h.1).braced.append (.fixed rfl (.fixed rfl (.cons h.2.1.sound
      (.fixed rfl ((soundAll_stmts h.2.2.1).braced.append
        (.fixed rfl (soundAll_stmts h.2.2.2).braced)))))))
  | .func _ _ _, h =>
    .fixed rfl (.cons h.1.sound
      ((soundAll_paramKinds h.2.1).append (soundAll_stmts h.2.2).braced))

/-- The tokens of formed statements are tokens of the lexer. -/
theorem soundAll_stmts : ∀ {ss : List Stmt}, FormedAll ss → SoundAll (stmtKinds ss)
  | [], _ => .nil
  | _ :: _, h => (Stmt.soundAll h.1).append (soundAll_stmts h.2)

theorem soundAll_clauses : ∀ {cs : List Clause}, FormedClauses cs → SoundAll (clauseKinds cs)
  | [], _ => .nil
  | .on _ _ :: _, h =>
    .fixed rfl ((Expr.soundAll h.1).append (.fixed rfl
      ((soundAll_stmts h.2.1).append (soundAll_clauses h.2.2))))
  | .otherwise _ :: _, h =>
    .fixed rfl (.fixed rfl ((soundAll_stmts h.1).append (soundAll_clauses h.2)))

end

/-! ## Ends of programs -/

theorem stmtKinds_append (a b : List Stmt) : stmtKinds (a ++ b) = stmtKinds a ++ stmtKinds b := by
  induction a with
  | nil => rfl
  | cons s a ih => rw [List.cons_append, stmtKinds, ih, stmtKinds, List.append_assoc]

/-- Statements that begin with no regular expression may stand behind others. -/
theorem linkedAll_append {a b : List Stmt} (ha : linkedAll a = true) (hb : linkedAll b = true)
    (hplain : startsPlain b = true) : linkedAll (a ++ b) = true := by
  induction a with
  | nil => exact hb
  | cons s a ih =>
    obtain ⟨hs, ha⟩ := Bool.and_eq_true_iff.1 ha
    obtain ⟨hnext, ha⟩ := Bool.and_eq_true_iff.1 ha
    rw [List.cons_append, linkedAll, hs, ih ha, Bool.and_true, Bool.true_and, Bool.or_eq_true]
    refine (Bool.or_eq_true_iff.1 hnext).imp_right fun hstarts => ?_
    cases a with
    | nil => exact hplain
    | cons => exact hstarts

/-- The token ends a statement. -/
def TokenKind.endsStatement (kind : TokenKind) : Bool :=
  kind == .mark .semi || kind == .mark .rbrace

/-- The tokens end with one that ends a statement. -/
def EndsStatement (ks : List TokenKind) : Prop :=
  ∃ front kind, ks = front ++ [kind] ∧ kind.endsStatement = true

theorem EndsStatement.append {ks : List TokenKind} (h : EndsStatement ks)
    (more : List TokenKind) : EndsStatement (more ++ ks) := by
  obtain ⟨front, kind, rfl, hkind⟩ := h
  exact ⟨more ++ front, kind, (List.append_assoc ..).symm, hkind⟩

theorem EndsStatement.cons {ks : List TokenKind} (h : EndsStatement ks) (kind : TokenKind) :
    EndsStatement (kind :: ks) :=
  h.append [kind]

theorem endsStatement_semi (ks : List TokenKind) : EndsStatement (ks ++ [.mark .semi]) :=
  ⟨ks, _, rfl, rfl⟩

theorem endsStatement_braced (ks : List TokenKind) : EndsStatement (bracedKinds ks) :=
  ⟨.mark .lbrace :: ks, _, rfl, rfl⟩

/-- Every statement ends with a semicolon or a closing brace. -/
theorem Stmt.endsStatement : ∀ s : Stmt, EndsStatement s.kinds
  | .block _ => endsStatement_braced _
  | .vars _ => (endsStatement_semi _).cons _
  | .empty => endsStatement_semi []
  | .debugger => endsStatement_semi [_]
  | .expr _ => endsStatement_semi _
  | .ifThen _ yes => (((yes.endsStatement.cons _).append _).cons _).cons _
  | .ifElse _ _ no => (((((no.endsStatement.cons _).append _).cons _).append _).cons _).cons _
  | .loop _ _ _ body =>
    ((((((body.endsStatement.cons _).append _).cons _).append _).append _).cons _).cons _
  | .loopIn _ _ body => (((((body.endsStatement.cons _).append _).cons _).append _).cons _).cons _
  | .loopVarIn _ _ body =>
    ((((((body.endsStatement.cons _).append _).cons _).append _).cons _).cons _).cons _
  | .while _ body | .withScope _ body => (((body.endsStatement.cons _).append _).cons _).cons _
  | .doWhile _ _ => ((((endsStatement_semi [_]).append _).cons _).cons _ |>.append _).cons _
  | .continue _ | .break _ | .ret _ | .throw _ => (endsStatement_semi _).cons _
  | .label _ body => (body.endsStatement.cons _).cons _
  | .switch _ _ => ((((endsStatement_braced _).cons _).append _).cons _).cons _
  | .tryCatch _ _ _ =>
    ((((((endsStatement_braced _).cons _).cons _).cons _).cons _).append _).cons _
  | .tryFinally _ _ => (((endsStatement_braced _).cons _).append _).cons _
  | .tryCatchFinally _ _ _ _ =>
    (((((((endsStatement_braced _).cons _).append _).cons _).cons _).cons _).cons _).append _
      |>.cons _
  | .func _ _ _ => (((endsStatement_braced _).append _).cons _).cons _

/-- Nothing stands before, or the token before ends a statement. -/
def LexState.Closed (s : LexState) : Prop :=
  ∀ kind ∈ s.previous, kind.endsStatement = true

theorem LexState.Closed.follow {s : LexState} (h : s.Closed) (ss : List Stmt) :
    (s.follow (stmtKinds ss)).Closed := by
  induction ss generalizing s with
  | nil => exact h
  | cons statement ss ih =>
    rw [stmtKinds, LexState.follow_append]
    refine ih ?_
    obtain ⟨front, kind, hkinds, hkind⟩ := statement.endsStatement
    rw [hkinds, follow_concat, LexState.Closed, previous_after]
    rintro _ ⟨⟩
    exact hkind

/-! ## Reading printed text -/

/-- The program may be printed in the style: its tokens are legible, and no regular expression
stands directly behind a function. -/
def Printable (minified : Bool) (program : Program) : Prop :=
  linkedAll program = true ∧ ({} : LexState).legible minified (stmtKinds program) = true

instance (minified : Bool) (program : Program) : Decidable (Printable minified program) :=
  inferInstanceAs (Decidable (_ ∧ _))

/-- Behind a program the text stands for the statements. -/
structure Trails (text : String) (ss : List Stmt) : Prop where
  formed : FormedAll ss
  linked : linkedAll ss = true
  plain : startsPlain ss = true
  spells : ∀ s f : LexState, s.Behind f → f.Fresh → f.Closed →
    Spells s.isAmbiguous (s.tokens text.toList) (stmtKinds ss ++ [.eof])
  length : (stmtKinds ss).length ≤ text.length

theorem Trails.nothing : Trails "" [] where
  formed := trivial
  linked := rfl
  plain := rfl
  spells s _ _ _ _ := by
    rw [String.toList_empty, tokens_stop rfl]
    exact .token ⟨.eof, _, none⟩ (.nil _)
  length := Nat.zero_le _

/-- A program of the grammar is read back from its text in a careful style, and with it the
statements of a text that stands behind. -/
theorem Style.Careful.parse_print_append {minified : Bool} {style : Style}
    (hstyle : style.Careful minified) {program : Program} (hformed : FormedAll program)
    (h : Printable minified program) {tail : String} {more : List Stmt}
    (htail : Trails tail more) :
    parse (style.print (programPieces program) ++ tail) = some (program ++ more) := by
  obtain ⟨hlinked, hlegible⟩ := h
  have hlaid := laid_programPieces hformed
  have hsound := soundAll_stmts hformed
  have hclosed : ({} : LexState).Closed := by rintro _ ⟨⟩
  have hspells := hlaid.spells hstyle hsound hlegible fun s hs =>
    htail.spells s _ hs (.follow ⟨rfl, rfl⟩ _) (hclosed.follow _)
  have hlength := hlaid.length_print hstyle hsound hlegible
  refine parse_of_spells (formedAll_append hformed htail.formed)
    (linkedAll_append hlinked htail.linked htail.plain) ?_ ?_
  · rwa [stmtKinds_append, List.append_assoc]
  · rw [stmtKinds_append, List.length_append, String.length_append]
    exact Nat.add_le_add hlength htail.length

/-- A program of the grammar is read back from its text in a careful style. -/
theorem Style.Careful.parse_print {minified : Bool} {style : Style}
    (hstyle : style.Careful minified)
    {program : Program} (hformed : FormedAll program) (h : Printable minified program) :
    parse (style.print (programPieces program)) = some program := by
  have hread := hstyle.parse_print_append hformed h .nothing
  rwa [String.append_empty, List.append_nil] at hread

/-- Pretty text of any width is read back. -/
theorem parse_pretty (width : Nat) {program : Program} (hformed : FormedAll program)
    (h : Printable false program) : parse (pretty width program) = some program :=
  (careful_pretty width).parse_print hformed h

/-- Minified text is read back. -/
theorem parse_minified {program : Program} (hformed : FormedAll program)
    (h : Printable true program) : parse (minified program) = some program :=
  careful_minified.parse_print hformed h

end Espalier.Script
