import Espalier.Helper
import Espalier.Proofs.Scan.Parts
import Espalier.Text.Cut
import Espalier.Text.Lowercase
import Espalier.Text.Quoted
import Espalier.Text.Uppercase

/-!
# Properties of an element

The attributes of a tag become an object literal. Values of `class` are collected into `className`,
which comes last; array literals among them are flattened and empty values dropped. `for` becomes
`htmlFor`, names with an `aria-` or `data-` stem are kept, and other hyphenated names are written in
camel case. When a tag also spreads objects over its attributes, the literal and the objects are
merged at run time by a helper.
-/

namespace Espalier

open Espalier.Text Espalier.Scan

/-- Source of a tag name: host elements are strings, anything else refers to a component. -/
def elementType (name : String) : String :=
  if name.toList.head?.any isLowercase || name.toList.contains '-' then quote name else name

/-- A word with its first character in upper case. -/
def capitalize : List Char → List Char
  | [] => []
  | c :: cs => upper c ++ cs

/-- Join hyphenated parts, capitalizing all but the first. -/
def camelChars (cs : List Char) : List Char :=
  match cutAt '-' cs with
  | [] => []
  | head :: parts => head ++ parts.flatMap capitalize

/-- A hyphenated name in camel case. -/
def camelName (name : String) : String :=
  String.ofList (camelChars name.toList)

/-- The name belongs to one of the families that keep their hyphens. -/
def keepsHyphens (name : String) : Bool :=
  "aria-".toList.isPrefixOf name.toList || "data-".toList.isPrefixOf name.toList

/-- The property key of an attribute. -/
def propertyKey (name : String) : String :=
  if name = "for" then "htmlFor"
  else if keepsHyphens name then name
  else camelName name

/-- The literals that add no class. -/
def emptyClasses : List String := ["null", "\x22\x22", "''"]

/-- The operands that one `class` value contributes, or the fault of the split at the commas. A
bracket without an end is no fault: the value is then taken as it is. -/
def classItems? (value : String) : Except Fault (List String) :=
  let stripped := strip value.toList
  if emptyClasses.contains (String.ofList stripped) then .ok []
  else
    match stripped with
    | '[' :: inner =>
      match closedBy "]" stripped.length 1 inner with
      | .error _ => .ok [value]
      | .ok cut =>
        -- an array literal only if nothing follows its bracket
        if cut.rest.isEmpty then
          (topLevelParts (String.ofList cut.body) ",").map fun items =>
            (items.map fun item => String.ofList (strip item.toList)).filter (!·.isEmpty)
        else .ok [value]
    | _ => .ok [value]

/-- A `class` value contributes nothing, itself, or the items of the array literal it is. The split
into items never fails, since the closing bracket has been found. -/
theorem classItems?_cases (value : String) :
    classItems? value = .ok [] ∨ classItems? value = .ok [value] ∨
    ∃ (inner : List Char) (cut : Cut) (items : List String),
      strip value.toList = '[' :: inner ∧ closedBy "]" (inner.length + 1) 1 inner = .ok cut ∧
      topLevelParts (String.ofList cut.body) "," = .ok items ∧ classItems? value
        = .ok ((items.map fun item => String.ofList (strip item.toList)).filter (!·.isEmpty)) := by
  unfold classItems?
  simp only
  split
  case isTrue => exact .inl rfl
  case isFalse =>
  split
  case h_2 => exact .inr (.inl rfl)
  case h_1 inner hstripped =>
  rw [hstripped]
  split
  case h_1 => exact .inr (.inl rfl)
  case h_2 cut hcut =>
  split
  case isFalse => exact .inr (.inl rfl)
  case isTrue =>
    obtain ⟨items, hitems⟩ := topLevelParts_of_closedBy hcut ","
    rw [hitems]
    exact .inr (.inr ⟨inner, cut, items, rfl, hcut, hitems, rfl⟩)

theorem classItems?_ne_error (value : String) (fault : Fault) :
    classItems? value ≠ .error fault := by
  obtain h | h | ⟨_, _, _, -, -, -, h⟩ := classItems?_cases value
  all_goals
    rw [h]
    simp

/-- The operands that one `class` value contributes. -/
def classItems (value : String) : List String :=
  match h : classItems? value with
  | .ok items => items
  | .error fault => absurd h (classItems?_ne_error value fault)

theorem classItems?_eq (value : String) : classItems? value = .ok (classItems value) := by
  unfold classItems
  split
  case h_1 items h => exact h
  case h_2 fault h => exact absurd h (classItems?_ne_error value fault)

/-- An operand of a class is the value as it is, or an item of the array literal it is. -/
theorem exists_of_mem_classItems {value operand : String} (h : operand ∈ classItems value) :
    operand = value ∨ ∃ (inner : List Char) (cut : Cut) (items : List String),
      strip value.toList = '[' :: inner ∧ closedBy "]" (inner.length + 1) 1 inner = .ok cut ∧
      topLevelParts (String.ofList cut.body) "," = .ok items ∧
      ∃ item ∈ items, operand = String.ofList (strip item.toList) := by
  obtain hfound | hfound | ⟨inner, cut, items, hstripped, hcut, hitems, hfound⟩ :=
    classItems?_cases value
  all_goals
    rw [classItems?_eq] at hfound
    rw [Except.ok.inj hfound] at h
  · cases h
  · exact .inl (List.mem_singleton.1 h)
  · obtain ⟨item, hitem, rfl⟩ := List.mem_map.1 (List.mem_filter.1 h).1
    exact .inr ⟨inner, cut, items, hstripped, hcut, hitems, item, hitem, rfl⟩

/-- The characters are the inside of a string literal and the quote that ends it. -/
def endsLiteral (mark : Char) : List Char → Bool
  | [] => false
  | [c] => c == mark
  | '\x5c' :: c :: cs => c != '\n' && endsLiteral mark cs
  | c :: cs => c != mark && c != '\x5c' && endsLiteral mark cs

/-- The operand is a string literal or a dotted name, which needs no parentheses in a sum. -/
def isSimpleOperand (source : String) : Bool :=
  match source.toList with
  | [] => false
  | c :: cs =>
    (c == '\x22' || c == '\x27') && endsLiteral c cs ||
      (c :: cs).all fun d => isWord d || d == '$' || d == '.'

/-- An operand of a sum, in parentheses where needed. -/
def summand (source : String) : String :=
  if isSimpleOperand source then source else "(" ++ source ++ ")"

/-- What stands between two classes. -/
def classGap : String := " + \x22 \x22 + "

/-- The value of `className`: a single class as it is, several as a sum with blanks between. -/
def classValue : List String → String
  | [single] => single
  | classes => String.intercalate classGap (classes.map summand)

/-- An attribute of a tag; its value is the source of an expression. -/
structure Attribute (α : Type) where
  name : α
  value : String
  deriving DecidableEq, Repr

/-- The entries of the attributes other than `class`, in order. -/
def plainEntries (attrs : List (Attribute String)) : List String :=
  (attrs.filter (·.name ≠ "class")).map fun attr =>
    quote (propertyKey attr.name) ++ ":" ++ attr.value

/-- The classes of all `class` attributes, in order. -/
def classesOf (attrs : List (Attribute String)) : List String :=
  (attrs.filter (·.name = "class")).flatMap fun attr => classItems attr.value

/-- The `className` entry, if there is a class. -/
def classEntry (classes : List String) : List String :=
  if classes.isEmpty then [] else ["className:" ++ classValue classes]

/-- The object literal of static attributes. -/
def objectLiteral (attrs : List (Attribute String)) : String :=
  "\x7b" ++ String.intercalate "," (plainEntries attrs ++ classEntry (classesOf attrs)) ++ "\x7d"

/-- The static part of merged properties: nothing if there are no static attributes. -/
def staticPart (attrs : List (Attribute String)) : List String :=
  if attrs.isEmpty then [] else [objectLiteral attrs]

/-- The properties expression of a tag, and the helpers asked for once it is built. -/
def propertiesOf (attrs : List (Attribute String)) (spreads : List String)
    (helpers : List Helper) : String × List Helper :=
  if spreads.isEmpty then
    (if attrs.isEmpty then "null" else objectLiteral attrs, helpers)
  else
    (Marker.call Helper.merge.name (staticPart attrs ++ spreads), Helper.merge.request helpers)

end Espalier
