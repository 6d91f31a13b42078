import Espalier.Script.Tree

/-!
# Tokens

The words and marks that program text is made of. Tokens know whether a line end stands directly
before them, since a missing semicolon may be supplied there.
-/

namespace Espalier.Script

/-- Words that cannot be identifiers. -/
inductive Keyword where
  | break | case | catch | continue | debugger | default | delete | do | else | finally | for
  | function | if | in | instanceof | new | return | switch | this | throw | try | typeof | var
  | void | while | with | null | true | false
  /-- A word without a meaning, kept for later versions of the language. -/
  | future (word : String)
  deriving DecidableEq, Repr

/-- The spelling of a keyword. -/
def Keyword.text : Keyword → String
  | .break => "break" | .case => "case" | .catch => "catch" | .continue => "continue"
  | .debugger => "debugger" | .default => "default" | .delete => "delete" | .do => "do"
  | .else => "else" | .finally => "finally" | .for => "for" | .function => "function"
  | .if => "if" | .in => "in" | .instanceof => "instanceof" | .new => "new"
  | .return => "return" | .switch => "switch" | .this => "this" | .throw => "throw"
  | .try => "try" | .typeof => "typeof" | .var => "var" | .void => "void" | .while => "while"
  | .with => "with" | .null => "null" | .true => "true" | .false => "false"
  | .future word => word

/-- Every keyword. -/
def Keyword.all : List Keyword :=
  [.break, .case, .catch, .continue, .debugger, .default, .delete, .do, .else, .finally, .for,
    .function, .if, .in, .instanceof, .new, .return, .switch, .this, .throw, .try, .typeof, .var,
    .void, .while, .with, .null, .true, .false, .future "class", .future "const",
    .future "enum", .future "export", .future "extends", .future "import", .future "super"]

/-- The keyword with this spelling. -/
def Keyword.ofText? (word : String) : Option Keyword :=
  Keyword.all.find? (·.text == word)

/-- Punctuation and operators. A sign in front of an operand is lexed as the operator between
two. -/
inductive Mark where
  | lparen | rparen | lbrace | rbrace | lbracket | rbracket
  | dot | semi | comma | question | colon
  | increment | decrement | bitNot | not
  | binary (op : BinaryOp)
  | assign (op : AssignOp)
  deriving DecidableEq, Repr

/-- The spelling of a mark. -/
def Mark.text : Mark → String
  | .lparen => "(" | .rparen => ")" | .lbrace => "\x7b" | .rbrace => "\x7d"
  | .lbracket => "[" | .rbracket => "]"
  | .dot => "." | .semi => ";" | .comma => "," | .question => "?" | .colon => ":"
  | .increment => "++" | .decrement => "--" | .bitNot => "~" | .not => "!"
  | .binary op => op.text
  | .assign op => op.text

/-- Every mark, the longer ones first. -/
def Mark.all : List Mark :=
  [.assign .shiftRightZero,
    .assign .shiftLeft, .assign .shiftRight, .binary .shiftRightZero, .binary .eqStrict,
    .binary .neStrict,
    .increment, .decrement, .binary .shiftLeft, .binary .shiftRight, .binary .le, .binary .ge,
    .binary .eq, .binary .ne, .binary .and, .binary .or, .assign .add, .assign .sub, .assign .mul,
    .assign .div, .assign .mod, .assign .bitAnd, .assign .bitOr, .assign .bitXor,
    .lparen, .rparen, .lbrace, .rbrace, .lbracket, .rbracket, .dot, .semi, .comma, .question,
    .colon, .bitNot, .not, .binary .lt, .binary .gt, .binary .add, .binary .sub, .binary .mul,
    .binary .div, .binary .mod, .binary .bitAnd, .binary .bitOr, .binary .bitXor, .assign .plain]

/-- The longest mark at the start of a text, and what follows it. -/
def Mark.read? (cs : List Char) : Option (Mark × List Char) :=
  (Mark.all.find? fun mark => mark.text.toList.isPrefixOf cs).map fun mark =>
    (mark, cs.drop mark.text.length)

/-- What a token is. -/
inductive TokenKind where
  | name (id : String)
  | keyword (word : Keyword)
  | mark (m : Mark)
  | number (text : String)
  | string (text : String)
  | regex (text : String)
  /-- The word that introduces a getter, or a setter, in an object literal. -/
  | getter | setter
  /-- A semicolon supplied at a line end. -/
  | lineSemi
  /-- The end of the text. -/
  | eof
  /-- Text that is no token. -/
  | invalid
  deriving DecidableEq, Repr

/-- What stands directly before a token. -/
inductive Gap where
  | token | lineEnd | comment
  deriving DecidableEq, Repr

/-- What the lexer remembers between two tokens. -/
structure LexState where
  /-- The token before, comments and line ends apart. -/
  previous : Option TokenKind := none
  /-- What stands directly before. -/
  gap : Gap := .token
  /-- White space other than blanks and tabs stands before, behind the gap. -/
  wideSpace : Bool := false
  /-- For every open parenthesis whether it directly follows `if`, `for` or `while`. -/
  parens : List Bool := []
  /-- The parenthesis closed last directly followed `if`, `for` or `while`. -/
  closedHead : Bool := false
  deriving DecidableEq, Repr

/-- A slash that was taken for division but may begin a regular expression. -/
structure Retry where
  state : LexState
  /-- The text from the slash on. -/
  chars : List Char
  deriving DecidableEq, Repr

/-- A token in its place. -/
structure Token where
  kind : TokenKind
  /-- A line end stands directly before the token. -/
  afterLineEnd : Bool := false
  /-- How to read the text again from here with a regular expression. -/
  retry : Option Retry := none
  deriving DecidableEq, Repr

end Espalier.Script
