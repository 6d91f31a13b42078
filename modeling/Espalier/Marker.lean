/-!
# Reserved names

Generated source speaks of elements and output through calls of reserved names. Each begins with
the click letter U+01C3 and ends with the full-width low line U+FF3F: both may stand in identifiers
and neither appears in the ASCII code of a template, so these calls cannot be mistaken for an
author's.

`element`, `text` and `raw` are resolved when the render function is built. `iterate` and `merge`
name helpers that stay in the output, and `temporary` gives the variables of `case` subjects.
-/

namespace Espalier.Marker

/-- The first character of a reserved name. -/
def opening : Char := 'ǃ'

/-- The last character of a reserved name. -/
def closing : Char := '＿'

/-- The reserved name with this core. -/
def reserve (core : String) : String :=
  String.singleton opening ++ core ++ String.singleton closing

/-- Constructs an element from its type and properties. -/
def element : String := reserve "DOM"

/-- Outputs a value as text. -/
def text : String := reserve "text"

/-- Outputs a value as raw markup. -/
def raw : String := reserve "unescape"

/-- The iteration helper. -/
def iterate : String := reserve "map"

/-- The helper that merges property objects. -/
def merge : String := reserve "attrs"

/-- The variable that holds a `case` subject at a nesting depth. -/
def temporary (depth : Int) : String := reserve ("tmp" ++ toString depth)

/-- The names that do not survive into a finished program. -/
def resolved : List String := [element, text, raw]

/-- The name has the form of a reserved one. -/
def isReserved (name : String) : Bool :=
  name.toList.head? == some opening && name.toList.getLast? == some closing

/-- A call in source form. -/
def call (name : String) (args : List String) : String :=
  name ++ "(" ++ String.intercalate "," args ++ ")"

end Espalier.Marker
