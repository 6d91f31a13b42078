import Espalier.Script.Literal
import Espalier.Script.Pieces

/-!
# Minified text

No line breaks and no indentation, and blanks only where texts would run together. Semicolons are
kept, and string literals lose their line continuations.
-/

namespace Espalier.Script

namespace Minified

/-- Put a mark on a stack of actions, joining it with those it belongs to. Marks that concern lines
are dropped. -/
def push : List Action → LayoutMark → List Action
  | rest, .newline | rest, .optionalNewline | rest, .indent | rest, .dedent => rest
  | .mark .space :: rest, .openBlock => .brace :: rest
  | .mark .space :: rest, .endStatement => .semicolon :: rest
  | .mark .optionalSpace :: rest, .endStatement => .semicolon :: rest
  | .mark .headSpace :: rest, .endStatement => .semicolon :: rest
  | rest, m => .mark m :: rest

/-- The actions of a group of marks. -/
def actions (marks : List LayoutMark) : List Action :=
  (marks.foldl push []).reverse

/-- What an action writes. -/
def act (around : Around) : Action → String
  | .semicolon => ";"
  | .brace => "\x7b"
  | .nothing => ""
  | .mark .space | .mark .optionalSpace | .mark .headSpace =>
    if around.touching then " " else ""
  | .mark .requiredSpace => " "
  | .mark .openBlock => "\x7b"
  | .mark .closeBlock => "\x7d"
  | .mark .endStatement => ";"
  | .mark .newline | .mark .optionalNewline | .mark .indent | .mark .dedent => ""

/-- A literal without line continuations. -/
def joinLines : List Char → List Char
  | [] => []
  | '\x5c' :: '\r' :: '\n' :: cs => joinLines cs
  | '\x5c' :: c :: cs =>
    if endsLine c then joinLines cs else '\x5c' :: c :: joinLines cs
  | c :: cs => c :: joinLines cs

end Minified

/-- The minified style. -/
def Style.minified : Style where
  literal s := String.ofList (Minified.joinLines s.toList)
  group around level marks :=
    (String.join ((Minified.actions marks).map (Minified.act around)), level)

/-- A program as minified text. -/
def minified (program : Program) : String :=
  Style.minified.print (programPieces program)

end Espalier.Script
