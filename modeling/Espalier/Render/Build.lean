import Espalier.Script.Tree
import Espalier.Text.Cut

/-!
# Pieces of render functions

A render function collects children in arrays and hands them to the element factory of the run-time
library. These are the statements and expressions it is made of.
-/

namespace Espalier.Render

open Espalier.Script Espalier.Text

/-- What a render function is called and how it creates elements. -/
structure Settings where
  /-- The dotted name of the element factory. -/
  factory : String := "React.createElement"
  functionName : String := "render"
  deriving DecidableEq, Repr

/-- The expression of a dotted name, given by its parts. -/
def path : List (List Char) → Expr
  | [] => .name ""
  | first :: fields =>
    fields.foldl (fun owner field => .dot owner (String.ofList field)) (.name (String.ofList first))

/-- The element factory. -/
def Settings.factoryExpr (s : Settings) : Expr :=
  path (cutAt '.' s.factory.toList)

/-- The object that the factory is a method of, or `null` if it is a plain function. -/
def Settings.receiver (s : Settings) : Expr :=
  let owner := (cutAt '.' s.factory.toList).dropLast
  if owner.flatten.isEmpty && owner.length ≤ 1 then .null else path owner

/-- The declaration of a variable. -/
def declare (name : String) (value : Expr) : Stmt :=
  .vars [.init name value]

/-- The statement that adds a value to an array. -/
def push (array : String) (value : Expr) : Stmt :=
  .expr (.call (.dot (.name array) "push") [value])

/-- The element made of an array that holds its type, its properties and its children. -/
def Settings.create (s : Settings) (array : String) : Expr :=
  .call (.dot s.factoryExpr "apply") [s.receiver, .name array]

/-- An element with raw markup inside. -/
def Settings.rawMarkup (s : Settings) (value : Expr) : Expr :=
  .call s.factoryExpr
    [.string "\x22span\x22",
      .object [.field (.name "dangerouslySetInnerHTML")
        (.object [.field (.name "__html") value])]]

/-- A function's result: the only child, or else the array of children. -/
def soleOrAll (array : String) : Expr :=
  .cond (.binary .eqStrict (.dot (.name array) "length") (.number "1"))
    (.index (.name array) (.number "0")) (.name array)

end Espalier.Render
