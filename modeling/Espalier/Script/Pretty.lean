import Espalier.Script.Pieces

/-!
# Pretty text

One statement a line, blocks indented by a fixed number of blanks a level. A width of zero counts as
two.
-/

namespace Espalier.Script

namespace Pretty

/-- Put a mark on a stack of actions, joining it with those it belongs to. -/
def push : List Action → LayoutMark → List Action
  | .mark .space :: rest, .endStatement => .semicolon :: rest
  | .mark .optionalSpace :: rest, .endStatement => .semicolon :: rest
  | .mark .headSpace :: rest, .endStatement => .semicolon :: rest
  | .mark .newline :: .mark .indent :: rest, .dedent => .nothing :: rest
  | rest, m => .mark m :: rest

/-- The actions of a group of marks. -/
def actions (marks : List LayoutMark) : List Action :=
  (marks.foldl push []).reverse

/-- The indentation of a level. -/
def indentation (width level : Nat) : String :=
  String.ofList (List.replicate (width * level) ' ')

/-- The character ends a line. -/
def isLineEnd (c : Char) : Bool :=
  c == '\n' || c == '\r'

/-- What a mark that breaks a line only where none is broken yet writes. `previous` is what the
group has written last. -/
def optionalBreak (around : Around) (previous indentation : String) : String :=
  if around.last?.any isLineEnd then ""
  else if around.first?.any isLineEnd || previous.toList.getLast?.any isLineEnd then indentation
  else "\n" ++ indentation

/-- The text is an assignment. -/
def isAssignment (text : String) : Bool :=
  AssignOp.all.any (·.text == text)

/-- What an optional blank writes. -/
def optionalBlank (around : Around) : String :=
  if around.before.isSome && (around.touching || around.after.any isAssignment) then " " else ""

/-- What an optional blank in a head writes. -/
def headBlank (around : Around) : String :=
  match around.after with
  | some text => if text = ";" ∨ text = ")" then optionalBlank around else " "
  | none => ""

/-- What an action writes, and the level after it. -/
def act (width : Nat) (around : Around) (level : Nat) (previous : String) :
    Action → String × Nat
  | .semicolon => (";", level)
  | .brace => ("\x7b", level)
  | .nothing => ("", level)
  | .mark .space | .mark .requiredSpace => (" ", level)
  | .mark .optionalSpace => (optionalBlank around, level)
  | .mark .headSpace => (headBlank around, level)
  | .mark .newline => ("\n" ++ indentation width level, level)
  | .mark .optionalNewline => (optionalBreak around previous (indentation width level), level)
  | .mark .indent => ("", level + 1)
  | .mark .dedent => ("", level - 1)
  | .mark .openBlock => ("\x7b", level)
  | .mark .closeBlock => ("\x7d", level)
  | .mark .endStatement => (";", level)

/-- What actions write one after the other. -/
def run (width : Nat) (around : Around) (level : Nat) (previous : String) :
    List Action → String × Nat
  | [] => ("", level)
  | action :: rest =>
    let (written, level) := act width around level previous action
    let previous := if written.isEmpty then previous else written
    let (more, level) := run width around level previous rest
    (written ++ more, level)

end Pretty

/-- The pretty style. -/
def Style.pretty (width : Nat) : Style where
  literal := id
  group around level marks :=
    Pretty.run (if width = 0 then 2 else width) around level "" (Pretty.actions marks)

/-- A program as pretty text. -/
def pretty (width : Nat) (program : Program) : String :=
  (Style.pretty width).print (programPieces program)

end Espalier.Script
