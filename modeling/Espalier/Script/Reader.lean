import Espalier.Script.Lexer

/-!
# From tokens to programs

A reader of ES5 programs by recursive descent. The grammar is a little wider than the standard: a
function may be declared wherever a statement may stand, jumps may stand anywhere, and any
left-hand-side expression may be assigned to or stepped. Nested parentheses count as one pair. It is
narrower in expression statements, where the right operand of a logical or bitwise operator does not
begin with a brace.

A missing semicolon is supplied before a token that cannot go on, if that token is a closing brace
or the end of the text or if a line end stands directly before it. It can end a statement but is
never a statement of its own and no part of a loop head.

Every function takes a number that bounds the depth of its calls. `parse` starts with more than a
text of its length can need.
-/

namespace Espalier.Script

/-- Readers of token lists; all failures are alike. -/
abbrev Reader := StateT (List Token) Option

namespace Reader

/-- The next token's kind. -/
def peek : Reader TokenKind := do
  match ← get with
  | t :: _ => return t.kind
  | [] => return .eof

/-- The kind of the token after the next one. -/
def peekSecond : Reader TokenKind := do
  match ← get with
  | _ :: t :: _ => return t.kind
  | _ => return .eof

/-- Pass the next token. -/
def skip : Reader Unit :=
  modify List.tail

/-- Pass a token that must be this one. -/
def expect (kind : TokenKind) : Reader Unit := do
  if (← peek) = kind then skip else failure

/-- Pass a mark that must be this one. -/
def expectMark (m : Mark) : Reader Unit :=
  expect (.mark m)

/-- Pass a token if it is this one. -/
def accept (kind : TokenKind) : Reader Bool := do
  if (← peek) = kind then
    skip
    return true
  else return false

/-- An identifier. -/
def identifier : Reader String := do
  match ← peek with
  | .name id =>
    skip
    return id
  | _ => failure

/-- The name of a field after a dot: any word. -/
def fieldName : Reader String := do
  match ← peek with
  | .name id =>
    skip
    return id
  | .keyword word =>
    skip
    return word.text
  | _ => failure

/-- The name of a property in an object literal. -/
def propertyKey : Reader Key := do
  match ← peek with
  | .string text =>
    skip
    return .string text
  | .number text =>
    skip
    return .number text
  | _ => return .name (← fieldName)

/-- The end of a statement: a semicolon, or a place where one may be supplied. -/
def endStatement : Reader Unit := do
  match ← get with
  | t :: rest =>
    match t.kind with
    | .mark .semi | .lineSemi => set rest
    | .mark .rbrace | .eof => return ()
    | _ => if t.afterLineEnd then return () else failure
  | [] => return ()

/-- Pass commas and count them. -/
def commas : (fuel : Nat) → Reader Nat
  | 0 => failure
  | fuel + 1 => do
    if ← accept (.mark .comma) then return (← commas fuel) + 1 else return 0

/-- The names between commas after a first one. -/
def moreNames : (fuel : Nat) → Reader (List String)
  | 0 => failure
  | fuel + 1 => do
    if ← accept (.mark .comma) then
      let name ← identifier
      return name :: (← moreNames fuel)
    else return []

/-- The parameters of a function, between parentheses. -/
def params (fuel : Nat) : Reader (List String) := do
  expectMark .lparen
  if ← accept (.mark .rparen) then return []
  else
    let first ← identifier
    let rest ← moreNames fuel
    expectMark .rparen
    return first :: rest

end Reader

/-- The operator that a token is in front of its operand. -/
def UnaryOp.ofToken? : TokenKind → Option UnaryOp
  | .keyword .delete => some .delete
  | .keyword .void => some .void
  | .keyword .typeof => some .typeOf
  | .mark .increment => some .increment
  | .mark .decrement => some .decrement
  | .mark (.binary .add) => some .plus
  | .mark (.binary .sub) => some .minus
  | .mark .bitNot => some .bitNot
  | .mark .not => some .not
  | _ => none

/-- The operator that a token is after its operand. -/
def StepOp.ofToken? : TokenKind → Option StepOp
  | .mark .increment => some .increment
  | .mark .decrement => some .decrement
  | _ => none

/-- Where an expression stands. Some places restrict the operators outside its parentheses. -/
inductive Place where
  /-- Where nothing is restricted. -/
  | free
  /-- In the head of a loop, where `in` leads to the collection. -/
  | loopHead
  /-- At the start of a statement, where a brace opens a block. -/
  | statement
  deriving DecidableEq, Repr

/-- The place of an operand behind a comma, an assignment or the mark of a conditional. Only loop
heads restrict it. -/
def Place.next : Place → Place
  | .loopHead => .loopHead
  | .free | .statement => .free

/-- The place of the right operand of an operator. An equality frees it in a loop head. -/
def Place.right (place : Place) (op : BinaryOp) : Place :=
  if place = .loopHead ∧ op.level = BinaryOp.eq.level then .free else place

/-- The right operand of the operator may begin with a brace. In a statement the logical and bitwise
operators, which bind less tightly than equality, keep the restriction of the statement's start. -/
def Place.allowsBrace (place : Place) (op : BinaryOp) : Bool :=
  place ≠ .statement ∨ BinaryOp.eq.level ≤ op.level

/-- The operator that a token is between two operands. -/
def BinaryOp.ofToken? (place : Place) : TokenKind → Option BinaryOp
  | .mark (.binary op) => some op
  | .keyword .instanceof => some .isInstance
  | .keyword .in => if place = .loopHead then none else some .isIn
  | _ => none

/-- The assignment that a token is. -/
def AssignOp.ofToken? : TokenKind → Option AssignOp
  | .mark (.assign op) => some op
  | _ => none

/-- An expression may begin with the token. -/
def TokenKind.startsExpr : TokenKind → Bool
  | .name _ | .number _ | .string _ | .regex _ => true
  | .keyword .this | .keyword .null | .keyword .true | .keyword .false => true
  | .keyword .function | .keyword .new => true
  | .mark .lparen | .mark .lbracket | .mark .lbrace => true
  | kind => (UnaryOp.ofToken? kind).isSome

/-- After a named function at the start of a statement, the token continues an expression and
cannot begin a statement. -/
def TokenKind.continuesFunction : TokenKind → Bool
  | .mark .dot | .mark .comma | .mark .question | .mark (.assign _) => true
  | .mark (.binary .add) | .mark (.binary .sub) => false
  | kind => (BinaryOp.ofToken? .free kind).isSome

/-- A pair of parentheses around an expression; a pair directly inside another is not counted. -/
def Expr.grouped : Expr → Expr
  | .group inner => .group inner
  | e => .group e

/-- The expression is a function and nothing else. -/
def Expr.isFunction : Expr → Bool
  | .func .. => true
  | _ => false

/-- The clause takes what no other clause takes. -/
def Clause.isOtherwise : Clause → Bool
  | .otherwise _ => true
  | .on .. => false

namespace Reader

/-- An operator after an operand, if there is one. -/
def stepTail (e : Expr) : Reader Expr := do
  match StepOp.ofToken? (← peek) with
  | some op =>
    skip
    return .step e op
  | none => return e

/-- An optional label, and the end of the jump. -/
def optionalLabel : Reader (Option String) := do
  let label ← match ← peek with
    | .name id => do skip; pure (some id)
    | _ => pure none
  endStatement
  return label

mutual

/-- An expression, commas included. -/
def expr (fuel : Nat) (place : Place) : Reader Expr :=
  match fuel with
  | 0 => failure
  | fuel + 1 => do
    let e ← assignment fuel place
    commaTail fuel place e

/-- The rest of an expression after a comma's left side. -/
def commaTail (fuel : Nat) (place : Place) (left : Expr) : Reader Expr :=
  match fuel with
  | 0 => failure
  | fuel + 1 => do
    if ← accept (.mark .comma) then
      let right ← assignment fuel place.next
      commaTail fuel place (.comma left right)
    else return left

/-- An expression without commas. -/
def assignment (fuel : Nat) (place : Place) : Reader Expr :=
  match fuel with
  | 0 => failure
  | fuel + 1 => do
    if (UnaryOp.ofToken? (← peek)).isSome then
      let e ← unary fuel
      operators fuel place e
    else
      let left ← leftHandSide fuel
      assignmentTail fuel place left

/-- The rest of an expression that begins with a left-hand side. -/
def assignmentTail (fuel : Nat) (place : Place) (left : Expr) : Reader Expr :=
  match fuel with
  | 0 => failure
  | fuel + 1 => do
    match AssignOp.ofToken? (← peek) with
    | some op =>
      skip
      let right ← assignment fuel place.next
      return .assign op left right
    | none =>
      let e ← stepTail left
      operators fuel place e

/-- The operators and the conditional after a first operand. -/
def operators (fuel : Nat) (place : Place) (first : Expr) : Reader Expr :=
  match fuel with
  | 0 => failure
  | fuel + 1 => do
    let e ← binaryTail fuel place 0 first
    if ← accept (.mark .question) then
      let yes ← assignment fuel place.next
      expectMark .colon
      let no ← assignment fuel place.next
      return .cond e yes no
    else return e

/-- The operators that bind more tightly than `level`, after a first operand. -/
def binaryTail (fuel : Nat) (place : Place) (level : Nat) (left : Expr) : Reader Expr :=
  match fuel with
  | 0 => failure
  | fuel + 1 => do
    match BinaryOp.ofToken? place (← peek) with
    | some op =>
      if level < op.level then
        skip
        if (← peek) = .mark .lbrace ∧ !place.allowsBrace op then failure
        let operand ← unary fuel
        let right ← binaryTail fuel (place.right op) op.level operand
        binaryTail fuel place level (.binary op left right)
      else return left
    | none => return left

/-- An operand with the operators in front of it and after it. -/
def unary (fuel : Nat) : Reader Expr :=
  match fuel with
  | 0 => failure
  | fuel + 1 => do
    match UnaryOp.ofToken? (← peek) with
    | some op =>
      skip
      let operand ← unary fuel
      return .unary op operand
    | none =>
      let e ← leftHandSide fuel
      stepTail e

/-- A left-hand side: calls, fields and constructions. -/
def leftHandSide (fuel : Nat) : Reader Expr :=
  match fuel with
  | 0 => failure
  | fuel + 1 => do
    let base ← construction fuel
    callTail fuel base

/-- Fields and calls after an expression. -/
def callTail (fuel : Nat) (e : Expr) : Reader Expr :=
  match fuel with
  | 0 => failure
  | fuel + 1 => do
    match ← peek with
    | .mark .dot =>
      skip
      let field ← fieldName
      callTail fuel (.dot e field)
    | .mark .lbracket =>
      skip
      let position ← expr fuel .free
      expectMark .rbracket
      callTail fuel (.index e position)
    | .mark .lparen =>
      let args ← arguments fuel
      callTail fuel (.call e args)
    | _ => return e

/-- Fields, but no calls, after an expression. -/
def memberTail (fuel : Nat) (e : Expr) : Reader Expr :=
  match fuel with
  | 0 => failure
  | fuel + 1 => do
    match ← peek with
    | .mark .dot =>
      skip
      let field ← fieldName
      memberTail fuel (.dot e field)
    | .mark .lbracket =>
      skip
      let position ← expr fuel .free
      expectMark .rbracket
      memberTail fuel (.index e position)
    | _ => return e

/-- A construction by `new`, with or without arguments, or a primary expression. -/
def construction (fuel : Nat) : Reader Expr :=
  match fuel with
  | 0 => failure
  | fuel + 1 => do
    if ← accept (.keyword .new) then
      let base ← construction fuel
      let callee ← memberTail fuel base
      if (← peek) = .mark .lparen then
        let args ← arguments fuel
        return .new callee args
      else return .newBare callee
    else primary fuel

/-- The arguments of a call. -/
def arguments (fuel : Nat) : Reader (List Expr) :=
  match fuel with
  | 0 => failure
  | fuel + 1 => do
    expectMark .lparen
    if ← accept (.mark .rparen) then return []
    else
      let first ← assignment fuel .free
      let rest ← moreArguments fuel
      return first :: rest

/-- The arguments after the first one. -/
def moreArguments (fuel : Nat) : Reader (List Expr) :=
  match fuel with
  | 0 => failure
  | fuel + 1 => do
    if ← accept (.mark .comma) then
      let arg ← assignment fuel .free
      let rest ← moreArguments fuel
      return arg :: rest
    else
      expectMark .rparen
      return []

/-- Names, literals, functions and parentheses. -/
def primary (fuel : Nat) : Reader Expr :=
  match fuel with
  | 0 => failure
  | fuel + 1 => do
    match ← get with
    | [] => failure
    | t :: rest =>
      match t.kind with
      | .name id => do set rest; return .name id
      | .number text => do set rest; return .number text
      | .string text => do set rest; return .string text
      | .regex text => do set rest; return .regex text
      | .keyword .this => do set rest; return .this
      | .keyword .null => do set rest; return .null
      | .keyword .true => do set rest; return .bool true
      | .keyword .false => do set rest; return .bool false
      | .keyword .function => do
        set rest
        let name ← match ← peek with
          | .name id => do skip; pure (some id)
          | _ => pure none
        let ps ← params fuel
        let body ← braced fuel
        return .func name ps body
      | .mark .lparen => do
        set rest
        let inner ← expr fuel .free
        expectMark .rparen
        return inner.grouped
      | .mark .lbracket => do
        set rest
        let items ← arrayItems fuel
        return .array items
      | .mark .lbrace => do
        set rest
        let properties ← objectProperties fuel
        return .object properties
      | .mark (.binary .div) =>
        match t.retry.bind Retry.regex? with
        | some (text, rest) => do set rest; return .regex text
        | none => failure
      | _ => failure

/-- The items of an array after its bracket or after an item's comma. -/
def arrayItems (fuel : Nat) : Reader (List Item) :=
  match fuel with
  | 0 => failure
  | fuel + 1 => do
    let count ← commas fuel
    let missing := if count = 0 then [] else [Item.elision count]
    if ← accept (.mark .rbracket) then return missing
    else
      let e ← assignment fuel .free
      if ← accept (.mark .comma) then
        let rest ← arrayItems fuel
        return missing ++ .value e :: rest
      else
        expectMark .rbracket
        return missing ++ [.value e]

/-- The properties of an object after its brace or after a property's comma. -/
def objectProperties (fuel : Nat) : Reader (List Property) :=
  match fuel with
  | 0 => failure
  | fuel + 1 => do
    if ← accept (.mark .rbrace) then return []
    else
      let p ← property fuel
      if ← accept (.mark .comma) then
        let rest ← objectProperties fuel
        return p :: rest
      else
        expectMark .rbrace
        return [p]

/-- One property of an object. -/
def property (fuel : Nat) : Reader Property :=
  match fuel with
  | 0 => failure
  | fuel + 1 => do
    if ← accept .getter then
      let key ← propertyKey
      expectMark .lparen
      expectMark .rparen
      let body ← braced fuel
      return .getter key body
    else if ← accept .setter then
      let key ← propertyKey
      expectMark .lparen
      let param ← identifier
      expectMark .rparen
      let body ← braced fuel
      return .setter key param body
    else
      let key ← propertyKey
      expectMark .colon
      let value ← assignment fuel .free
      return .field key value

/-- Statements between braces. -/
def braced (fuel : Nat) : Reader (List Stmt) :=
  match fuel with
  | 0 => failure
  | fuel + 1 => do
    expectMark .lbrace
    let body ← statements fuel
    expectMark .rbrace
    return body

/-- Statements up to a closing brace, a clause or the end. -/
def statements (fuel : Nat) : Reader (List Stmt) :=
  match fuel with
  | 0 => failure
  | fuel + 1 => do
    match ← peek with
    | .mark .rbrace | .keyword .case | .keyword .default | .eof => return []
    | _ =>
      let s ← statement fuel
      let rest ← statements fuel
      return s :: rest

/-- A statement. -/
def statement (fuel : Nat) : Reader Stmt :=
  match fuel with
  | 0 => failure
  | fuel + 1 => do
    match ← peek with
    | .mark .lbrace => return .block (← braced fuel)
    | .mark .semi => skip; return .empty
    | .keyword word =>
      match word with
      | .var =>
        skip
        let bindings ← bindings fuel .free
        endStatement
        return .vars bindings
      | .if => skip; ifTail fuel
      | .for => skip; forTail fuel
      | .while =>
        skip
        let test ← parenthesized fuel
        let body ← statement fuel
        return .while test body
      | .do =>
        skip
        let body ← statement fuel
        expect (.keyword .while)
        let test ← parenthesized fuel
        endStatement
        return .doWhile body test
      | .continue =>
        skip
        let label ← optionalLabel
        return .continue label
      | .break =>
        skip
        let label ← optionalLabel
        return .break label
      | .return =>
        skip
        if (← peek).startsExpr then
          let value ← expr fuel .free
          endStatement
          return .ret (some value)
        else
          endStatement
          return .ret none
      | .with =>
        skip
        let scope ← parenthesized fuel
        let body ← statement fuel
        return .withScope scope body
      | .switch =>
        skip
        let subject ← parenthesized fuel
        expectMark .lbrace
        let clauses ← clauses fuel
        expectMark .rbrace
        if 1 < clauses.countP (·.isOtherwise) then failure else return .switch subject clauses
      | .throw =>
        skip
        let value ← expr fuel .free
        endStatement
        return .throw value
      | .debugger =>
        skip
        endStatement
        return .debugger
      | .try => skip; tryTail fuel
      | .function => functionStatement fuel
      | _ => expressionStatement fuel
    | .name id =>
      if (← peekSecond) = .mark .colon then
        skip
        skip
        let body ← statement fuel
        return .label id body
      else expressionStatement fuel
    | _ => expressionStatement fuel

/-- A statement that is an expression. -/
def expressionStatement (fuel : Nat) : Reader Stmt :=
  match fuel with
  | 0 => failure
  | fuel + 1 => do
    let e ← expr fuel .statement
    endStatement
    if e.isFunction then failure else return .expr e

/-- A statement that begins with a function. A named function is a declaration unless what follows
can only continue an expression. -/
def functionStatement (fuel : Nat) : Reader Stmt :=
  match fuel with
  | 0 => failure
  | fuel + 1 => do
    match ← peekSecond with
    | .name id =>
      skip
      skip
      let ps ← params fuel
      let body ← braced fuel
      if (← peek).continuesFunction then
        let left ← callTail fuel (.func (some id) ps body)
        let e ← assignmentTail fuel .statement left
        let e ← commaTail fuel .statement e
        endStatement
        return .expr e
      else return .func id ps body
    | _ => expressionStatement fuel

/-- An expression in parentheses that belong to a statement. -/
def parenthesized (fuel : Nat) : Reader Expr :=
  match fuel with
  | 0 => failure
  | fuel + 1 => do
    expectMark .lparen
    let e ← expr fuel .free
    expectMark .rparen
    return e

/-- The variables of a declaration. -/
def bindings (fuel : Nat) (place : Place) : Reader (List Binding) :=
  match fuel with
  | 0 => failure
  | fuel + 1 => do
    let name ← identifier
    let b ← if ← accept (.mark (.assign .plain)) then do
        let value ← assignment fuel place
        pure (.init name value)
      else pure (.bare name)
    if ← accept (.mark .comma) then
      let rest ← bindings fuel place
      return b :: rest
    else return [b]

/-- The rest of a conditional statement; an `else` belongs to the nearest `if`. -/
def ifTail (fuel : Nat) : Reader Stmt :=
  match fuel with
  | 0 => failure
  | fuel + 1 => do
    let test ← parenthesized fuel
    let yes ← statement fuel
    if ← accept (.keyword .else) then
      let no ← statement fuel
      return .ifElse test yes no
    else return .ifThen test yes

/-- The rest of a loop that begins with `for`. -/
def forTail (fuel : Nat) : Reader Stmt :=
  match fuel with
  | 0 => failure
  | fuel + 1 => do
    expectMark .lparen
    let kind ← peek
    if kind = .mark .semi then
      skip
      loopTail fuel .nothing
    else if kind = .keyword .var then
      skip
      let declared ← bindings fuel .loopHead
      match declared with
      | [item] =>
        if ← accept (.keyword .in) then
          let (collection, body) ← loopInTail fuel
          return .loopVarIn item collection body
        else
          expectMark .semi
          loopTail fuel (.vars [item])
      | _ =>
        expectMark .semi
        loopTail fuel (.vars declared)
    else if (UnaryOp.ofToken? kind).isSome then
      let e ← expr fuel .loopHead
      expectMark .semi
      loopTail fuel (.expr e)
    else
      let left ← leftHandSide fuel
      if ← accept (.keyword .in) then
        let (collection, body) ← loopInTail fuel
        return .loopIn left collection body
      else
        let e ← assignmentTail fuel .loopHead left
        let e ← commaTail fuel .loopHead e
        expectMark .semi
        loopTail fuel (.expr e)

/-- The collection and the body of a loop over a collection. -/
def loopInTail (fuel : Nat) : Reader (Expr × Stmt) :=
  match fuel with
  | 0 => failure
  | fuel + 1 => do
    let collection ← expr fuel .free
    expectMark .rparen
    let body ← statement fuel
    return (collection, body)

/-- The rest of a loop after the first semicolon of its head. -/
def loopTail (fuel : Nat) (start : LoopStart) : Reader Stmt :=
  match fuel with
  | 0 => failure
  | fuel + 1 => do
    let test ← if ← accept (.mark .semi) then pure none
      else do
        let e ← expr fuel .free
        expectMark .semi
        pure (some e)
    let next ← if ← accept (.mark .rparen) then pure none
      else do
        let e ← expr fuel .free
        expectMark .rparen
        pure (some e)
    let body ← statement fuel
    return .loop start test next body

/-- The clauses of a switch. -/
def clauses (fuel : Nat) : Reader (List Clause) :=
  match fuel with
  | 0 => failure
  | fuel + 1 => do
    if ← accept (.keyword .case) then
      let label ← expr fuel .free
      expectMark .colon
      let body ← statements fuel
      let rest ← clauses fuel
      return .on label body :: rest
    else if ← accept (.keyword .default) then
      expectMark .colon
      let body ← statements fuel
      let rest ← clauses fuel
      return .otherwise body :: rest
    else return []

/-- The rest of a statement that begins with `try`. -/
def tryTail (fuel : Nat) : Reader Stmt :=
  match fuel with
  | 0 => failure
  | fuel + 1 => do
    let body ← braced fuel
    if ← accept (.keyword .catch) then
      expectMark .lparen
      let param ← identifier
      expectMark .rparen
      let handler ← braced fuel
      if ← accept (.keyword .finally) then
        let finalizer ← braced fuel
        return .tryCatchFinally body param handler finalizer
      else return .tryCatch body param handler
    else
      expect (.keyword .finally)
      let finalizer ← braced fuel
      return .tryFinally body finalizer

end

end Reader

/-- The bound on the depth of calls that reading a text of this length can need. -/
def readingDepth (length : Nat) : Nat :=
  16 * (length + 2)

/-- The program that tokens stand for, all of them. -/
def parseTokens (fuel : Nat) (tokens : List Token) : Option Program := do
  let (program, rest) ← (Reader.statements fuel).run tokens
  match rest with
  | [⟨.eof, _, _⟩] => some program
  | _ => none

/-- The program that a text stands for. -/
def parse (source : String) : Option Program :=
  parseTokens (readingDepth source.length) (tokenize source)

end Espalier.Script
