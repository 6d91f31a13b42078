import Espalier.Proofs.Script.Kinds

/-!
# Trees of the grammar

`Formed` holds of the trees that the readers build. Operands bind at least as tightly as their
operator asks (`Expr.rank`), restricted places hold no operator that they forbid, an expression
statement does not begin like another statement (`Expr.leads`), an `else` belongs to the nearest
`if`, and names and literals are tokens of the lexer (`TokenKind.Genuine`).
-/

namespace Espalier.Script

/-! ## Tokens -/

/-- The lexer finds the token in some text. -/
def TokenKind.Genuine (kind : TokenKind) : Prop :=
  ∃ (s : LexState) (cs : List Char) (retry : Option Retry) (rest : List Char),
    s.look cs = .token kind retry rest

/-- The name is one that the lexer finds. -/
def IsName (id : String) : Prop :=
  (TokenKind.name id).Genuine

/-! ## Operands -/

/-- How tightly the outermost construct of an expression binds: a comma not at all, an assignment or
a conditional more, the operators between two operands by their level, then the operators of one
operand, a construction without arguments, calls, and at last fields and what stands by itself. A
field of a call counts as a call. -/
def Expr.rank : Expr → Nat
  | .comma .. => 0
  | .assign .. | .cond .. => 1
  | .binary op _ _ => op.level + 1
  | .unary .. | .step .. => 12
  | .newBare _ => 13
  | .call .. => 14
  | .dot owner _ | .index owner _ => owner.rank
  | .name _ | .this | .null | .bool _ | .number _ | .string _ | .regex _ | .array _ | .object _
  | .group _ | .func .. | .new .. => 15

/-- The right operand of the operator ends before the token. -/
def BinaryOp.yields (op : BinaryOp) (place : Place) (kind : TokenKind) : Bool :=
  (BinaryOp.ofToken? place kind).all (·.level ≤ op.level)

/-- No operator inside the expression goes on with the token. -/
def Expr.closes (place : Place) (kind : TokenKind) : Expr → Bool
  | .binary op _ right =>
    op.yields (place.right op) kind && right.closes (place.right op) kind
  | .assign _ _ right | .cond _ _ right | .comma _ right => right.closes place.next kind
  | _ => true

/-- The expression is a pair of parentheses. -/
def Expr.isGroup : Expr → Bool
  | .group _ => true
  | _ => false

/-- The expression may stand at the start of a statement. A named function does so only before a
token that cannot begin a statement; `continued` says that such a token follows. -/
def Expr.leads (continued : Bool) : Expr → Bool
  | .object _ => false
  | .func (some _) _ _ => continued
  | .dot owner _ => owner.leads true
  | .index owner _ => owner.leads false
  | .call callee _ => callee.leads false
  | .step operand _ => operand.leads false
  | .binary op left _ => left.leads op.kind.continuesFunction
  | .assign _ left _ | .cond left _ _ | .comma left _ => left.leads true
  | _ => true

/-! ## Statements -/

/-- An `else` behind the statement would belong to it. -/
def Stmt.takesElse : Stmt → Bool
  | .ifThen .. => true
  | .ifElse _ _ no => no.takesElse
  | .loop _ _ _ body | .loopIn _ _ body | .loopVarIn _ _ body | .while _ body | .withScope _ body
  | .label _ body => body.takesElse
  | _ => false

/-- The statement ends with the declaration of a function. -/
def Stmt.endsInFunction : Stmt → Bool
  | .func .. => true
  | .ifThen _ body | .ifElse _ _ body | .loop _ _ _ body | .loopIn _ _ body | .loopVarIn _ _ body
  | .while _ body | .withScope _ body | .label _ body => body.endsInFunction
  | _ => false

/-- The initial value of a variable in a loop head ends before the word `in`. -/
def Binding.endsBeforeIn : Binding → Bool
  | .bare _ => true
  | .init _ value => value.closes .loopHead (.keyword .in)

/-- The name of a property is a word. -/
def Key.isWord : Key → Bool
  | .name _ => true
  | .string _ | .number _ => false

/-! ## Trees -/

mutual

/-- The expression is one that the readers find at the place. -/
def Expr.Formed (place : Place) : Expr → Prop
  | .name id => IsName id
  | .this | .null | .bool _ => True
  | .number text => (TokenKind.number text).Genuine
  | .string text => (TokenKind.string text).Genuine
  | .regex text => (TokenKind.regex text).Genuine
  | .array items => FormedItems items
  | .object properties => FormedProperties properties
  | .group inner => inner.Formed .free ∧ inner.isGroup = false
  | .func name params body =>
    (∀ id ∈ name, IsName id) ∧ (∀ id ∈ params, IsName id) ∧ FormedAll body
  | .dot owner field => owner.Formed .free ∧ 14 ≤ owner.rank ∧ (wordToken field).Genuine
  | .index owner position => owner.Formed .free ∧ 14 ≤ owner.rank ∧ position.Formed .free
  | .call callee args => callee.Formed .free ∧ 14 ≤ callee.rank ∧ FormedArgs args
  | .new callee args => callee.Formed .free ∧ 15 ≤ callee.rank ∧ FormedArgs args
  | .newBare callee => callee.Formed .free ∧ (callee.rank = 13 ∨ 15 ≤ callee.rank)
  | .unary _ operand => operand.Formed .free ∧ 12 ≤ operand.rank
  | .step operand _ => operand.Formed .free ∧ 13 ≤ operand.rank
  | .binary op left right =>
    left.Formed place ∧ op.level < left.rank ∧ right.Formed (place.right op) ∧
      op.level + 1 < right.rank ∧ (op = .isIn → place ≠ .loopHead) ∧
      (right.head = .mark .lbrace → place.allowsBrace op = true)
  | .assign _ left right =>
    left.Formed .free ∧ 13 ≤ left.rank ∧ right.Formed place.next ∧ 1 ≤ right.rank
  | .cond test yes no =>
    test.Formed place ∧ 2 ≤ test.rank ∧ yes.Formed place.next ∧ 1 ≤ yes.rank ∧
      no.Formed place.next ∧ 1 ≤ no.rank
  | .comma left right => left.Formed place ∧ right.Formed place.next ∧ 1 ≤ right.rank

/-- `Formed` for the arguments of a call. -/
def FormedArgs : List Expr → Prop
  | [] => True
  | e :: es => e.Formed .free ∧ 1 ≤ e.rank ∧ FormedArgs es

/-- `Formed` for an expression that may be missing. -/
def FormedOptional : Option Expr → Prop
  | none => True
  | some e => e.Formed .free

/-- `Formed` for the items of an array: runs of commas are not empty and stand apart. -/
def FormedItems : List Item → Prop
  | [] => True
  | .elision count :: items =>
    0 < count ∧ (∀ more rest, items ≠ .elision more :: rest) ∧ FormedItems items
  | .value e :: items => e.Formed .free ∧ 1 ≤ e.rank ∧ FormedItems items

/-- `Formed` for a property of an object. -/
def Property.Formed : Property → Prop
  | .field key value => key.kind.Genuine ∧ value.Formed .free ∧ 1 ≤ value.rank
  | .getter key body => key.kind.Genuine ∧ key.isWord = true ∧ FormedAll body
  | .setter key param body =>
    key.kind.Genuine ∧ key.isWord = true ∧ IsName param ∧ FormedAll body

/-- `Formed` for the properties of an object. -/
def FormedProperties : List Property → Prop
  | [] => True
  | p :: properties => p.Formed ∧ FormedProperties properties

/-- `Formed` for a declared variable. -/
def Binding.Formed (place : Place) : Binding → Prop
  | .bare name => IsName name
  | .init name value => IsName name ∧ value.Formed place ∧ 1 ≤ value.rank

/-- `Formed` for several declared variables. -/
def FormedBindings (place : Place) : List Binding → Prop
  | [] => True
  | b :: bs => b.Formed place ∧ FormedBindings place bs

/-- `Formed` for what stands before the first semicolon of a loop head. -/
def LoopStart.Formed : LoopStart → Prop
  | .nothing => True
  | .vars bindings => bindings ≠ [] ∧ FormedBindings .loopHead bindings
  | .expr e => e.Formed .loopHead

/-- The statement is one that the readers find. -/
def Stmt.Formed : Stmt → Prop
  | .block body => FormedAll body
  | .vars bindings => bindings ≠ [] ∧ FormedBindings .free bindings
  | .empty | .debugger => True
  | .expr e => e.Formed .statement ∧ e.leads false = true ∧ e.isFunction = false
  | .ifThen test yes => test.Formed .free ∧ yes.Formed
  | .ifElse test yes no =>
    test.Formed .free ∧ yes.Formed ∧ yes.takesElse = false ∧ no.Formed
  | .loop start test next body =>
    start.Formed ∧ FormedOptional test ∧ FormedOptional next ∧ body.Formed
  | .loopIn item collection body =>
    item.Formed .free ∧ 13 ≤ item.rank ∧ collection.Formed .free ∧ body.Formed
  | .loopVarIn item collection body =>
    item.Formed .loopHead ∧ item.endsBeforeIn = true ∧ collection.Formed .free ∧ body.Formed
  | .while test body => test.Formed .free ∧ body.Formed
  | .doWhile body test => body.Formed ∧ test.Formed .free
  | .continue label | .break label => ∀ id ∈ label, IsName id
  | .ret value => FormedOptional value
  | .withScope scope body => scope.Formed .free ∧ body.Formed
  | .label name body => IsName name ∧ body.Formed
  | .switch subject clauses =>
    subject.Formed .free ∧ FormedClauses clauses ∧ clauses.countP (·.isOtherwise) ≤ 1
  | .throw value => value.Formed .free
  | .tryCatch body param handler => FormedAll body ∧ IsName param ∧ FormedAll handler
  | .tryFinally body finalizer => FormedAll body ∧ FormedAll finalizer
  | .tryCatchFinally body param handler finalizer =>
    FormedAll body ∧ IsName param ∧ FormedAll handler ∧ FormedAll finalizer
  | .func name params body => IsName name ∧ (∀ id ∈ params, IsName id) ∧ FormedAll body

/-- `Formed` for several statements. -/
def FormedAll : List Stmt → Prop
  | [] => True
  | s :: ss => s.Formed ∧ FormedAll ss

/-- `Formed` for the clauses of a switch. -/
def FormedClauses : List Clause → Prop
  | [] => True
  | .on label body :: clauses => label.Formed .free ∧ FormedAll body ∧ FormedClauses clauses
  | .otherwise body :: clauses => FormedAll body ∧ FormedClauses clauses

end

theorem formedAll_append {a b : List Stmt} (ha : FormedAll a) (hb : FormedAll b) :
    FormedAll (a ++ b) := by
  induction a with
  | nil => exact hb
  | cons s a ih => exact ⟨ha.1, ih ha.2⟩

/-- The statement is of the grammar and may stand where the other one does: an `else` belongs to it
if it would belong to the other one. -/
structure Stmt.Replaces (out s : Stmt) : Prop where
  formed : out.Formed
  takesElse : out.takesElse = s.takesElse

/-! ## Functions before regular expressions -/

/-- The kind is that of a regular expression. -/
def TokenKind.isRegex : TokenKind → Bool
  | .regex _ => true
  | _ => false

theorem TokenKind.exists_of_isRegex {kind : TokenKind} (h : kind.isRegex = true) :
    ∃ text, kind = .regex text := by
  cases kind with
  | regex text => exact ⟨text, rfl⟩
  | _ => cases h

/-- The statements do not begin with a regular expression. -/
def startsPlain (ss : List Stmt) : Bool :=
  ss.head?.all (!·.head.isRegex)

mutual

/-- No regular expression stands directly behind the declaration of a function, where its slash
would be taken for a division by the function. -/
def Expr.linked : Expr → Bool
  | .name _ | .this | .null | .bool _ | .number _ | .string _ | .regex _ => true
  | .array items => linkedItems items
  | .object properties => linkedProperties properties
  | .group e | .dot e _ | .newBare e | .unary _ e | .step e _ => e.linked
  | .func _ _ body => linkedAll body
  | .index a b | .binary _ a b | .assign _ a b | .comma a b => a.linked && b.linked
  | .call callee args | .new callee args => callee.linked && linkedExprs args
  | .cond test yes no => test.linked && (yes.linked && no.linked)

/-- `linked` for several expressions. -/
def linkedExprs : List Expr → Bool
  | [] => true
  | e :: es => e.linked && linkedExprs es

/-- `linked` for an expression that may be missing. -/
def linkedOptional : Option Expr → Bool
  | none => true
  | some e => e.linked

/-- `linked` for the items of an array. -/
def linkedItems : List Item → Bool
  | [] => true
  | .elision _ :: items => linkedItems items
  | .value e :: items => e.linked && linkedItems items

/-- `linked` for a property of an object. -/
def Property.linked : Property → Bool
  | .field _ value => value.linked
  | .getter _ body | .setter _ _ body => linkedAll body

/-- `linked` for the properties of an object. -/
def linkedProperties : List Property → Bool
  | [] => true
  | p :: properties => p.linked && linkedProperties properties

/-- `linked` for a declared variable. -/
def Binding.linked : Binding → Bool
  | .bare _ => true
  | .init _ value => value.linked

/-- `linked` for several declared variables. -/
def linkedBindings : List Binding → Bool
  | [] => true
  | b :: bs => b.linked && linkedBindings bs

/-- `linked` for what stands before the first semicolon of a loop head. -/
def LoopStart.linked : LoopStart → Bool
  | .nothing => true
  | .vars bindings => linkedBindings bindings
  | .expr e => e.linked

/-- `linked` for a statement. -/
def Stmt.linked : Stmt → Bool
  | .empty | .debugger | .continue _ | .break _ => true
  | .block body | .func _ _ body => linkedAll body
  | .vars bindings => linkedBindings bindings
  | .expr e | .throw e => e.linked
  | .ifThen e body | .while e body | .doWhile body e | .withScope e body => e.linked && body.linked
  | .ifElse test yes no => test.linked && (yes.linked && no.linked)
  | .loop start test next body =>
    start.linked && (linkedOptional test && (linkedOptional next && body.linked))
  | .loopIn item collection body => item.linked && (collection.linked && body.linked)
  | .loopVarIn item collection body => item.linked && (collection.linked && body.linked)
  | .ret value => linkedOptional value
  | .label _ body => body.linked
  | .switch subject clauses => subject.linked && linkedClauses clauses
  | .tryCatch body _ handler | .tryFinally body handler => linkedAll body && linkedAll handler
  | .tryCatchFinally body _ handler finalizer =>
    linkedAll body && (linkedAll handler && linkedAll finalizer)

/-- `linked` for several statements. -/
def linkedAll : List Stmt → Bool
  | [] => true
  | s :: ss => s.linked && ((!s.endsInFunction || startsPlain ss) && linkedAll ss)

/-- `linked` for the clauses of a switch. -/
def linkedClauses : List Clause → Bool
  | [] => true
  | .on label body :: clauses => label.linked && (linkedAll body && linkedClauses clauses)
  | .otherwise body :: clauses => linkedAll body && linkedClauses clauses

end

end Espalier.Script
