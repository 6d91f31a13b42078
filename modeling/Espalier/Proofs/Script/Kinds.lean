import Espalier.Proofs.Script.Reading

/-!
# The tokens of a program

What a program is written with, token by token, whatever the layout: every statement ends with its
semicolon, and a run of commas in an array is that many commas. `Expr.head` and `Stmt.head` are the
first tokens of expressions and statements.
-/

namespace Espalier.Script

/-! ## Single tokens -/

/-- The token of an operator between two operands. -/
def BinaryOp.kind : BinaryOp → TokenKind
  | .isInstance => .keyword .instanceof
  | .isIn => .keyword .in
  | op => .mark (.binary op)

/-- The token of an operator in front of its operand. -/
def UnaryOp.kind : UnaryOp → TokenKind
  | .delete => .keyword .delete
  | .void => .keyword .void
  | .typeOf => .keyword .typeof
  | .increment => .mark .increment
  | .decrement => .mark .decrement
  | .plus => .mark (.binary .add)
  | .minus => .mark (.binary .sub)
  | .bitNot => .mark .bitNot
  | .not => .mark .not

/-- The token of an operator after its operand. -/
def StepOp.kind : StepOp → TokenKind
  | .increment => .mark .increment
  | .decrement => .mark .decrement

/-- The token of a property's name. -/
def Key.kind : Key → TokenKind
  | .name id => wordToken id
  | .string text => .string text
  | .number text => .number text

/-- The name of a property is a word or a literal. -/
theorem Key.kind_ne {kind : TokenKind} (hname : ∀ id, .name id ≠ kind)
    (hkeyword : ∀ word, .keyword word ≠ kind) (hstring : ∀ text, .string text ≠ kind)
    (hnumber : ∀ text, .number text ≠ kind) (key : Key) : key.kind ≠ kind := by
  cases key with
  | name id =>
    rw [Key.kind, wordToken]
    split
    · exact hkeyword _
    · exact hname _
  | string text => exact hstring text
  | number text => exact hnumber text

/-- The token of a truth value. -/
def boolKind (value : Bool) : TokenKind :=
  if value then .keyword .true else .keyword .false

/-- The token of a name that may be missing. -/
def nameKinds : Option String → List TokenKind
  | none => []
  | some id => [.name id]

/-! ## Trees -/

open Reader (bracedKinds paramKinds)

mutual

/-- The tokens of an expression. -/
def Expr.kinds : Expr → List TokenKind
  | .name id => [.name id]
  | .this => [.keyword .this]
  | .null => [.keyword .null]
  | .bool value => [boolKind value]
  | .number text => [.number text]
  | .string text => [.string text]
  | .regex text => [.regex text]
  | .array items => .mark .lbracket :: (itemKinds items ++ [.mark .rbracket])
  | .object properties => .mark .lbrace :: (propertyKinds properties ++ [.mark .rbrace])
  | .group inner => .mark .lparen :: (inner.kinds ++ [.mark .rparen])
  | .func name params body =>
    .keyword .function :: (nameKinds name ++ (paramKinds params ++ bracedKinds (stmtKinds body)))
  | .dot owner field => owner.kinds ++ [.mark .dot, wordToken field]
  | .index owner position =>
    owner.kinds ++ .mark .lbracket :: (position.kinds ++ [.mark .rbracket])
  | .call callee args => callee.kinds ++ .mark .lparen :: argKinds args
  | .new callee args => .keyword .new :: (callee.kinds ++ .mark .lparen :: argKinds args)
  | .newBare callee => .keyword .new :: callee.kinds
  | .unary op operand => op.kind :: operand.kinds
  | .step operand op => operand.kinds ++ [op.kind]
  | .binary op left right => left.kinds ++ op.kind :: right.kinds
  | .assign op left right => left.kinds ++ .mark (.assign op) :: right.kinds
  | .cond test yes no =>
    test.kinds ++ .mark .question :: (yes.kinds ++ .mark .colon :: no.kinds)
  | .comma left right => left.kinds ++ .mark .comma :: right.kinds

/-- The tokens of arguments up to the closing parenthesis. -/
def argKinds : List Expr → List TokenKind
  | [] => [.mark .rparen]
  | e :: es => e.kinds ++ moreArgKinds es

/-- The tokens of arguments after a first one, up to the closing parenthesis. -/
def moreArgKinds : List Expr → List TokenKind
  | [] => [.mark .rparen]
  | e :: es => .mark .comma :: (e.kinds ++ moreArgKinds es)

/-- The tokens of an expression that may be missing. -/
def optionalKinds : Option Expr → List TokenKind
  | none => []
  | some e => e.kinds

/-- The tokens of an array's items. A comma follows every value but the last. -/
def itemKinds : List Item → List TokenKind
  | [] => []
  | .elision count :: items => List.replicate count (.mark .comma) ++ itemKinds items
  | .value e :: items =>
    e.kinds ++ (if items.isEmpty then [] else [.mark .comma]) ++ itemKinds items

/-- The tokens of a property. -/
def Property.kinds : Property → List TokenKind
  | .field key value => key.kind :: .mark .colon :: value.kinds
  | .getter key body =>
    .getter :: key.kind :: .mark .lparen :: .mark .rparen :: bracedKinds (stmtKinds body)
  | .setter key param body =>
    .setter :: key.kind :: .mark .lparen :: .name param :: .mark .rparen
      :: bracedKinds (stmtKinds body)

/-- The tokens of an object's properties. -/
def propertyKinds : List Property → List TokenKind
  | [] => []
  | p :: properties =>
    p.kinds ++ (if properties.isEmpty then [] else [.mark .comma]) ++ propertyKinds properties

/-- The tokens of a declared variable. -/
def Binding.kinds : Binding → List TokenKind
  | .bare name => [.name name]
  | .init name value => .name name :: .mark (.assign .plain) :: value.kinds

/-- The tokens of several declared variables. -/
def bindingKinds : List Binding → List TokenKind
  | [] => []
  | b :: bs => b.kinds ++ (if bs.isEmpty then [] else [.mark .comma]) ++ bindingKinds bs

/-- The tokens of a loop head up to its first semicolon. -/
def LoopStart.kinds : LoopStart → List TokenKind
  | .nothing => [.mark .semi]
  | .vars bindings => .keyword .var :: (bindingKinds bindings ++ [.mark .semi])
  | .expr e => e.kinds ++ [.mark .semi]

/-- The tokens of a statement. -/
def Stmt.kinds : Stmt → List TokenKind
  | .block body => bracedKinds (stmtKinds body)
  | .vars bindings => .keyword .var :: (bindingKinds bindings ++ [.mark .semi])
  | .empty => [.mark .semi]
  | .expr e => e.kinds ++ [.mark .semi]
  | .ifThen test yes =>
    .keyword .if :: .mark .lparen :: (test.kinds ++ .mark .rparen :: yes.kinds)
  | .ifElse test yes no =>
    .keyword .if :: .mark .lparen :: (test.kinds ++ .mark .rparen
      :: (yes.kinds ++ .keyword .else :: no.kinds))
  | .loop start test next body =>
    .keyword .for :: .mark .lparen :: (start.kinds ++ (optionalKinds test ++ .mark .semi
      :: (optionalKinds next ++ .mark .rparen :: body.kinds)))
  | .loopIn item collection body =>
    .keyword .for :: .mark .lparen :: (item.kinds ++ .keyword .in
      :: (collection.kinds ++ .mark .rparen :: body.kinds))
  | .loopVarIn item collection body =>
    .keyword .for :: .mark .lparen :: .keyword .var :: (item.kinds ++ .keyword .in
      :: (collection.kinds ++ .mark .rparen :: body.kinds))
  | .while test body =>
    .keyword .while :: .mark .lparen :: (test.kinds ++ .mark .rparen :: body.kinds)
  | .doWhile body test =>
    .keyword .do :: (body.kinds ++ .keyword .while :: .mark .lparen
      :: (test.kinds ++ [.mark .rparen, .mark .semi]))
  | .continue label => .keyword .continue :: (nameKinds label ++ [.mark .semi])
  | .break label => .keyword .break :: (nameKinds label ++ [.mark .semi])
  | .ret value => .keyword .return :: (optionalKinds value ++ [.mark .semi])
  | .withScope scope body =>
    .keyword .with :: .mark .lparen :: (scope.kinds ++ .mark .rparen :: body.kinds)
  | .label name body => .name name :: .mark .colon :: body.kinds
  | .switch subject clauses =>
    .keyword .switch :: .mark .lparen :: (subject.kinds ++ .mark .rparen
      :: bracedKinds (clauseKinds clauses))
  | .throw value => .keyword .throw :: (value.kinds ++ [.mark .semi])
  | .debugger => [.keyword .debugger, .mark .semi]
  | .tryCatch body param handler =>
    .keyword .try :: (bracedKinds (stmtKinds body) ++ .keyword .catch :: .mark .lparen
      :: .name param :: .mark .rparen :: bracedKinds (stmtKinds handler))
  | .tryFinally body finalizer =>
    .keyword .try :: (bracedKinds (stmtKinds body) ++ .keyword .finally
      :: bracedKinds (stmtKinds finalizer))
  | .tryCatchFinally body param handler finalizer =>
    .keyword .try :: (bracedKinds (stmtKinds body) ++ .keyword .catch :: .mark .lparen
      :: .name param :: .mark .rparen :: (bracedKinds (stmtKinds handler) ++ .keyword .finally
      :: bracedKinds (stmtKinds finalizer)))
  | .func name params body =>
    .keyword .function :: .name name :: (paramKinds params ++ bracedKinds (stmtKinds body))

/-- The tokens of several statements. -/
def stmtKinds : List Stmt → List TokenKind
  | [] => []
  | s :: ss => s.kinds ++ stmtKinds ss

/-- The tokens of the clauses of a switch. -/
def clauseKinds : List Clause → List TokenKind
  | [] => []
  | .on label body :: clauses =>
    .keyword .case :: (label.kinds ++ .mark .colon :: (stmtKinds body ++ clauseKinds clauses))
  | .otherwise body :: clauses =>
    .keyword .default :: .mark .colon :: (stmtKinds body ++ clauseKinds clauses)

end

/-! ## First tokens -/

/-- The first token of an expression. -/
def Expr.head : Expr → TokenKind
  | .name id => .name id
  | .this => .keyword .this
  | .null => .keyword .null
  | .bool value => boolKind value
  | .number text => .number text
  | .string text => .string text
  | .regex text => .regex text
  | .array _ => .mark .lbracket
  | .object _ => .mark .lbrace
  | .group _ => .mark .lparen
  | .func .. => .keyword .function
  | .new .. | .newBare _ => .keyword .new
  | .unary op _ => op.kind
  | .dot e _ | .index e _ | .call e _ | .step e _ | .binary _ e _ | .assign _ e _ | .cond e _ _
  | .comma e _ => e.head

theorem Expr.kinds_eq_cons (e : Expr) : ∃ more, e.kinds = e.head :: more := by
  match e with
  | .name _ | .this | .null | .bool _ | .number _ | .string _ | .regex _ | .array _ | .object _
  | .group _ | .func .. | .new .. | .newBare _ | .unary .. => exact ⟨_, by rw [kinds]; rfl⟩
  | .dot e _ | .index e _ | .call e _ | .step e _ | .binary _ e _ | .assign _ e _ | .cond e _ _
  | .comma e _ =>
    obtain ⟨more, hmore⟩ := e.kinds_eq_cons
    exact ⟨_, by rw [kinds, hmore]; rfl⟩

/-- Expressions begin with tokens that may begin an expression. -/
theorem Expr.startsExpr_head (e : Expr) : e.head.startsExpr = true := by
  match e with
  | .name _ | .this | .null | .number _ | .string _ | .regex _ | .array _ | .object _ | .group _
  | .func .. | .new .. | .newBare _ => rfl
  | .bool value => cases value <;> rfl
  | .unary op _ => cases op <;> rfl
  | .dot e _ | .index e _ | .call e _ | .step e _ | .binary _ e _ | .assign _ e _ | .cond e _ _
  | .comma e _ => exact e.startsExpr_head

theorem Expr.one_le_length_kinds (e : Expr) : 1 ≤ e.kinds.length := by
  obtain ⟨more, hmore⟩ := e.kinds_eq_cons
  rw [hmore]
  exact Nat.succ_le_succ (Nat.zero_le _)

/-- The first token of a statement. -/
def Stmt.head : Stmt → TokenKind
  | .block _ => .mark .lbrace
  | .vars _ => .keyword .var
  | .empty => .mark .semi
  | .expr e => e.head
  | .ifThen .. | .ifElse .. => .keyword .if
  | .loop .. | .loopIn .. | .loopVarIn .. => .keyword .for
  | .while .. => .keyword .while
  | .doWhile .. => .keyword .do
  | .continue _ => .keyword .continue
  | .break _ => .keyword .break
  | .ret _ => .keyword .return
  | .withScope .. => .keyword .with
  | .label name _ => .name name
  | .switch .. => .keyword .switch
  | .throw _ => .keyword .throw
  | .debugger => .keyword .debugger
  | .tryCatch .. | .tryFinally .. | .tryCatchFinally .. => .keyword .try
  | .func .. => .keyword .function

theorem Stmt.kinds_eq_cons (s : Stmt) : ∃ more, s.kinds = s.head :: more := by
  cases s with
  | expr e =>
    obtain ⟨more, hmore⟩ := e.kinds_eq_cons
    exact ⟨_, by rw [kinds, hmore]; rfl⟩
  | _ => exact ⟨_, by rw [kinds]; rfl⟩

theorem Stmt.one_le_length_kinds (s : Stmt) : 1 ≤ s.kinds.length := by
  obtain ⟨more, hmore⟩ := s.kinds_eq_cons
  rw [hmore]
  exact Nat.succ_le_succ (Nat.zero_le _)

/-- No statement begins with a token that closes a list of statements. -/
theorem Stmt.closesStatements_head (s : Stmt) : Reader.closesStatements s.head = false := by
  cases s with
  | expr e =>
    have hstarts := e.startsExpr_head
    apply Bool.eq_false_iff.2
    intro hcloses
    have hhead : (Stmt.expr e).head = e.head := rfl
    rw [hhead] at hcloses
    obtain h | h | h | h := Reader.closesStatements_cases hcloses
    all_goals
      rw [h] at hstarts
      cases hstarts
  | _ => rfl

end Espalier.Script
