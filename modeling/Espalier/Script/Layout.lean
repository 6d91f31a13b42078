import Espalier.Text.Word

/-!
# Layout

A program is printed in two steps. First it becomes a stream of text pieces with layout marks
between them, which is the same for every style; then a style decides what the marks between two
texts write. Marks see only the texts around their group: the braces and semicolons that marks
write themselves do not count.
-/

namespace Espalier.Script

open Espalier.Text

/-- Layout marks. -/
inductive LayoutMark where
  | space
  /-- A space where the texts would run together. -/
  | optionalSpace
  /-- The same in the head of a loop, where pretty text is looser. -/
  | headSpace
  | requiredSpace
  | newline
  | optionalNewline
  | indent
  | dedent
  | openBlock
  | closeBlock
  | endStatement
  deriving DecidableEq, Repr

/-- A piece of the stream. -/
inductive Piece where
  | text (s : String)
  /-- A string literal. -/
  | literal (s : String)
  | mark (m : LayoutMark)
  deriving DecidableEq, Repr

/-- The texts around a group of marks. -/
structure Around where
  before : Option String
  after : Option String

/-- The last character before a group. -/
def Around.last? (a : Around) : Option Char :=
  a.before.bind (·.toList.getLast?)

/-- The first character after a group. -/
def Around.first? (a : Around) : Option Char :=
  a.after.bind (·.toList.head?)

/-- Two characters that would be read as one word or one operator if they touched. -/
def wouldJoin (left right : Char) : Bool :=
  (isWord left && isWord right) || (left == '+' && right == '+') || (left == '-' && right == '-')
    || (isWord left && right == '$') || (left == '$' && isWord right)

/-- The texts around a group would run together. -/
def Around.touching (a : Around) : Bool :=
  match a.last?, a.first? with
  | some left, some right => wouldJoin left right
  | _, _ => false

/-- A style of printing. -/
structure Style where
  /-- How a string literal is written. -/
  literal : String → String
  /-- What a group of marks writes at an indentation level, and the level after it. -/
  group : Around → Nat → List LayoutMark → String × Nat

/-- Print a stream. `marks` are the marks since the last text, in reverse. -/
def Style.layOut (style : Style) (level : Nat) (before : Option String)
    (marks : List LayoutMark) : List Piece → String
  | [] => (style.group ⟨before, none⟩ level marks.reverse).1
  | .mark m :: pieces => style.layOut level before (m :: marks) pieces
  | .text s :: pieces =>
    let (written, level) := style.group ⟨before, some s⟩ level marks.reverse
    written ++ s ++ style.layOut level (some s) [] pieces
  | .literal s :: pieces =>
    let s := style.literal s
    let (written, level) := style.group ⟨before, some s⟩ level marks.reverse
    written ++ s ++ style.layOut level (some s) [] pieces

/-- Print a stream from its beginning. -/
def Style.print (style : Style) (pieces : List Piece) : String :=
  style.layOut 0 none [] pieces

/-- What is left of a group when marks that belong together are joined. -/
inductive Action where
  | mark (m : LayoutMark)
  /-- An optional blank and the semicolon after it: only the semicolon is written. -/
  | semicolon
  /-- A blank and the brace after it: only the brace is written. -/
  | brace
  /-- The indentation of an empty block, which is not written. -/
  | nothing
  deriving DecidableEq, Repr

end Espalier.Script
