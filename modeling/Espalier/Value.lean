import Espalier.Decimal.Shortest
import Espalier.Text.Printable
import Espalier.Text.Quoted

/-!
# Dynamic values

The description of a template arrives as a tree of dynamic values. Fields keep their order, and
whole numbers are unbounded and apart from fractions. `Value.isTrue` is the truth value that flags
are read by, and `Value.display` the text of a value used as an attribute.
-/

namespace Espalier

/-- A value of the input. -/
inductive Value where
  | null
  | bool (b : Bool)
  | int (n : Int)
  | float (x : Float)
  | str (s : String)
  | list (items : List Value)
  | dict (fields : List (String × Value))

/-- The truth of a value: empty, zero and absent values are false. -/
def Value.isTrue : Value → Bool
  | .null => false
  | .bool b => b
  | .int n => n != 0
  | .float x => x != 0
  | .str s => !s.isEmpty
  | .list items => !items.isEmpty
  | .dict fields => !fields.isEmpty

namespace Value

open Espalier.Text

/-- A character inside a shown string whose quotes are `mark`. -/
def shownChar (mark c : Char) : List Char :=
  if c = mark || c = '\x5c' then ['\x5c', c]
  else if c = '\n' then ['\x5c', 'n']
  else if c = '\r' then ['\x5c', 'r']
  else if c = '\t' then ['\x5c', 't']
  else if isPrintable c then [c]
  else if c.toNat < 0x100 then '\x5c' :: 'x' :: hexDigits 2 c.toNat
  else if c.toNat < 0x10000 then '\x5c' :: 'u' :: hexDigits 4 c.toNat
  else '\x5c' :: 'U' :: hexDigits 8 c.toNat

/-- A string between apostrophes, or between double quotes if it holds only apostrophes. -/
def shownString (s : String) : String :=
  let cs := s.toList
  let mark := if cs.contains '\x27' && !cs.contains '\x22' then '\x22' else '\x27'
  String.ofList (mark :: (cs.flatMap (shownChar mark) ++ [mark]))

mutual

/-- A value as it is shown inside other values. -/
def shown : Value → String
  | .null => "None"
  | .bool b => if b then "True" else "False"
  | .int n => toString n
  | .float x => (Decimal.Parts.ofFloat x).text
  | .str s => shownString s
  | .list items => "[" ++ String.intercalate ", " (shownItems items) ++ "]"
  | .dict fields => "\x7b" ++ String.intercalate ", " (shownFields fields) ++ "\x7d"

/-- The items of a list as they are shown. -/
def shownItems : List Value → List String
  | [] => []
  | item :: items => item.shown :: shownItems items

/-- The fields of a mapping as they are shown. -/
def shownFields : List (String × Value) → List String
  | [] => []
  | (key, value) :: fields => (shownString key ++ ": " ++ value.shown) :: shownFields fields

end

/-- The text of a value: a string itself, and any other value as it is shown. -/
def display : Value → String
  | .str s => s
  | other => other.shown

end Value

end Espalier
