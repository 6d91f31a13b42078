import Espalier.Script.Layout
import Espalier.Script.Tree

/-!
# The pieces of a program

What each construct of a program contributes to the stream that a style prints.
-/

namespace Espalier.Script

namespace Piece

/-- A blank. -/
def space : Piece := .mark .space

/-- A line break at the current indentation. -/
def newline : Piece := .mark .newline

/-- Lists of pieces with other pieces between them. -/
def separated (separator : List Piece) : List (List Piece) → List Piece
  | [] => []
  | [item] => item
  | item :: items => item ++ separator ++ separated separator items

/-- A comma and a blank. -/
def listSeparator : List Piece := [.text ",", .mark .space]

/-- Lines between braces. -/
def block (lines : List (List Piece)) : List Piece :=
  [.mark .openBlock, .mark .indent, .mark .newline] ++ separated [.mark .newline] lines
    ++ [.mark .dedent, .mark .optionalNewline, .mark .closeBlock]

/-- Something in parentheses. -/
def parenthesized (inner : List Piece) : List Piece :=
  .text "(" :: inner ++ [.text ")"]

/-- A list in parentheses. -/
def listing (items : List (List Piece)) : List Piece :=
  parenthesized (separated listSeparator items)

/-- A word, a blank and something in parentheses. -/
def head (word : String) (inner : List Piece) : List Piece :=
  [.text word, .mark .space] ++ parenthesized inner

/-- A function: its name, if it has one, its parameters and its body. -/
def function (name : Option String) (params : List String) (body : List (List Piece)) :
    List Piece :=
  let named :=
    match name with
    | some name => [.mark .requiredSpace, .text name]
    | none => []
  [.text "function"] ++ named ++ listing (params.map fun p => [.text p]) ++ [.mark .space]
    ++ block body

/-- A jump with an optional label. -/
def jump (word : String) (label : Option String) : List Piece :=
  let target :=
    match label with
    | some name => [.mark .requiredSpace, .text name]
    | none => []
  .text word :: target ++ [.mark .endStatement]

/-- A variable with its initial value. -/
def initialized (name : String) (value : List Piece) : List Piece :=
  [.text name, .mark .space, .text "=", .mark .space] ++ value

/-- A declaration of variables. -/
def declaration (bindings : List (List Piece)) : List Piece :=
  [.text "var", .mark .requiredSpace] ++ separated listSeparator bindings ++ [.mark .endStatement]

/-- An array's items. A comma follows every item but the last, unless the item is a run of commas
itself, and a blank stands before a value. -/
def arrayItems : List (Bool × List Piece) → List Piece
  | [] => []
  | [item] => item.2
  | item :: next :: items =>
    item.2 ++ (if item.1 then [] else [.text ","]) ++ (if next.1 then [] else [.mark .space])
      ++ arrayItems (next :: items)

/-- The properties of an object, one a line. -/
def objectBody (properties : List (List Piece)) : List Piece :=
  if properties.isEmpty then []
  else
    [.mark .indent, .mark .newline] ++ separated [.text ",", .mark .newline] properties
      ++ [.mark .dedent, .mark .newline]

/-- A clause of a switch: its label, and its body one level deeper. -/
def clause (label : List Piece) (body : List (List Piece)) : List Piece :=
  label ++ [.text ":", .mark .indent, .mark .newline] ++ separated [.mark .newline] body
    ++ [.mark .dedent]

/-- A handler of exceptions. -/
def handler (param : String) (body : List (List Piece)) : List Piece :=
  head "catch" [.text param] ++ [.mark .space] ++ block body

/-- What is done in any case. -/
def finalizer (body : List (List Piece)) : List Piece :=
  [.text "finally", .mark .space] ++ block body

/-- Statements under the protection of a handler. -/
def guarded (body : List (List Piece)) : List Piece :=
  [.text "try", .mark .space] ++ block body

end Piece

/-- The pieces of a property's name. -/
def Key.pieces : Key → List Piece
  | .string text => [.literal text]
  | key => [.text key.text]

mutual

/-- The pieces of an expression. -/
def Expr.pieces : Expr → List Piece
  | .name id => [.text id]
  | .this => [.text "this"]
  | .null => [.text "null"]
  | .bool b => [.text (if b then "true" else "false")]
  | .number text => [.text text]
  | .string text => [.literal text]
  | .regex text => [.text text]
  | .array items => .text "[" :: Piece.arrayItems (itemPieces items) ++ [.text "]"]
  | .object properties =>
    .text "\x7b" :: Piece.objectBody (propertyPieces properties) ++ [.text "\x7d"]
  | .group inner => Piece.parenthesized inner.pieces
  | .func name params body => Piece.function name params (stmtPieces body)
  | .dot owner field => owner.pieces ++ [.text ".", .text field]
  | .index owner position => owner.pieces ++ [.text "["] ++ position.pieces ++ [.text "]"]
  | .call callee args => callee.pieces ++ Piece.listing (exprPieces args)
  | .new callee args =>
    [.text "new", .mark .requiredSpace] ++ callee.pieces ++ Piece.listing (exprPieces args)
  | .newBare callee => [.text "new", .mark .requiredSpace] ++ callee.pieces
  | .unary op operand => [.text op.text, .mark .optionalSpace] ++ operand.pieces
  | .step operand op => operand.pieces ++ [.text op.text]
  | .binary op left right =>
    left.pieces ++ [.mark .space, .text op.text, .mark .space] ++ right.pieces
  | .assign op left right =>
    left.pieces ++ [.mark .optionalSpace, .text op.text, .mark .space] ++ right.pieces
  | .cond test yes no =>
    test.pieces ++ [.mark .space, .text "?", .mark .space] ++ yes.pieces
      ++ [.mark .space, .text ":", .mark .space] ++ no.pieces
  | .comma left right => left.pieces ++ [.text ",", .mark .space] ++ right.pieces

/-- The pieces of several expressions. -/
def exprPieces : List Expr → List (List Piece)
  | [] => []
  | e :: es => e.pieces :: exprPieces es

/-- The pieces of an expression that may be missing. -/
def optionalPieces : Option Expr → List Piece
  | none => []
  | some e => e.pieces

/-- The pieces of an array's items, each with whether it is a run of commas. -/
def itemPieces : List Item → List (Bool × List Piece)
  | [] => []
  | .elision count :: items =>
    (true, [.text (String.ofList (List.replicate count ','))]) :: itemPieces items
  | .value e :: items => (false, e.pieces) :: itemPieces items

/-- The pieces of an object's properties. -/
def propertyPieces : List Property → List (List Piece)
  | [] => []
  | .field key value :: properties =>
    (key.pieces ++ [.mark .optionalSpace, .text ":", .mark .space] ++ value.pieces)
      :: propertyPieces properties
  | .getter key body :: properties =>
    ([.text "get", .mark .requiredSpace] ++ key.pieces ++ Piece.listing [] ++ [.mark .space]
      ++ Piece.block (stmtPieces body)) :: propertyPieces properties
  | .setter key param body :: properties =>
    ([.text "set", .mark .requiredSpace] ++ key.pieces ++ Piece.listing [[.text param]]
      ++ [.mark .space] ++ Piece.block (stmtPieces body)) :: propertyPieces properties

/-- The pieces of a declared variable. -/
def Binding.pieces : Binding → List Piece
  | .bare name => [.text name]
  | .init name value => Piece.initialized name value.pieces

/-- The pieces of several declared variables. -/
def bindingPieces : List Binding → List (List Piece)
  | [] => []
  | b :: bs => b.pieces :: bindingPieces bs

/-- The pieces before the first blank of a loop head. -/
def LoopStart.pieces : LoopStart → List Piece
  | .nothing => [.mark .endStatement]
  | .vars bindings => Piece.declaration (bindingPieces bindings)
  | .expr e => e.pieces ++ [.mark .endStatement]

/-- The pieces of a statement. -/
def Stmt.pieces : Stmt → List Piece
  | .block body => Piece.block (stmtPieces body)
  | .vars bindings => Piece.declaration (bindingPieces bindings)
  | .empty => [.mark .endStatement]
  | .expr e => e.pieces ++ [.mark .endStatement]
  | .ifThen test yes => Piece.head "if" test.pieces ++ [.mark .space] ++ yes.pieces
  | .ifElse test yes no =>
    Piece.head "if" test.pieces ++ [.mark .space] ++ yes.pieces
      ++ [.mark .newline, .text "else", .mark .space] ++ no.pieces
  | .loop start test next body =>
    Piece.head "for" (start.pieces ++ [.mark .headSpace] ++ optionalPieces test
      ++ [.mark .endStatement, .mark .headSpace] ++ optionalPieces next)
      ++ [.mark .space] ++ body.pieces
  | .loopIn item collection body =>
    Piece.head "for" (item.pieces ++ [.mark .requiredSpace, .text "in", .mark .space]
      ++ collection.pieces) ++ [.mark .space] ++ body.pieces
  | .loopVarIn item collection body =>
    Piece.head "for" (.text "var " :: item.pieces
      ++ [.mark .requiredSpace, .text "in", .mark .space] ++ collection.pieces)
      ++ [.mark .space] ++ body.pieces
  | .while test body => Piece.head "while" test.pieces ++ [.mark .headSpace] ++ body.pieces
  | .doWhile body test =>
    [.text "do", .mark .space] ++ body.pieces ++ [.mark .space] ++ Piece.head "while" test.pieces
      ++ [.mark .endStatement]
  | .continue label => Piece.jump "continue" label
  | .break label => Piece.jump "break" label
  | .ret (some value) => [.text "return", .mark .space] ++ value.pieces ++ [.mark .endStatement]
  | .ret none => [.text "return", .mark .endStatement]
  | .withScope scope body => Piece.head "with" scope.pieces ++ [.mark .space] ++ body.pieces
  | .label name body => [.text name, .text ":", .mark .space] ++ body.pieces
  | .switch subject clauses =>
    Piece.head "switch" subject.pieces ++ [.mark .space] ++ Piece.block (clausePieces clauses)
  | .throw value => [.text "throw", .mark .space] ++ value.pieces ++ [.mark .endStatement]
  | .debugger => [.text "debugger", .mark .endStatement]
  | .tryCatch body param handler =>
    Piece.guarded (stmtPieces body) ++ [.mark .newline] ++ Piece.handler param (stmtPieces handler)
  | .tryFinally body finalizer =>
    Piece.guarded (stmtPieces body) ++ [.mark .newline] ++ Piece.finalizer (stmtPieces finalizer)
  | .tryCatchFinally body param handler finalizer =>
    Piece.guarded (stmtPieces body) ++ [.mark .newline] ++ Piece.handler param (stmtPieces handler)
      ++ [.mark .newline] ++ Piece.finalizer (stmtPieces finalizer)
  | .func name params body => Piece.function (some name) params (stmtPieces body)

/-- The pieces of several statements. -/
def stmtPieces : List Stmt → List (List Piece)
  | [] => []
  | s :: ss => s.pieces :: stmtPieces ss

/-- The pieces of the clauses of a switch. -/
def clausePieces : List Clause → List (List Piece)
  | [] => []
  | .on label body :: clauses =>
    Piece.clause ([.text "case", .mark .space] ++ label.pieces) (stmtPieces body)
      :: clausePieces clauses
  | .otherwise body :: clauses =>
    Piece.clause [.text "default"] (stmtPieces body) :: clausePieces clauses

end

/-- The pieces of a program. -/
def programPieces (program : Program) : List Piece :=
  Piece.separated [.mark .newline] (stmtPieces program) ++ [.mark .optionalNewline]

end Espalier.Script
