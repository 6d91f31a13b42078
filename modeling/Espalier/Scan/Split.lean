import Espalier.Scan.Machine

/-!
# Splitting at the top level

A list of expressions is cut at the separators that stand outside every bracket and literal.
-/

namespace Espalier.Scan

/-- The character separates two parts: it is the separator and no bracket is open around it. -/
def separates (separator : String) (c : Char) (event : Event) : Bool :=
  event == .plain 0 && separator.toList == [c]

/-- Put a character in front of the first part. -/
def consPart (c : Char) : List (List Char) → List (List Char)
  | [] => [[c]]
  | part :: parts => (c :: part) :: parts

/-- The parts of a text that begins at `position` in a source of `size` characters. -/
def partsFrom (separator : String) (size : Nat) (s : State) (position : Nat) :
    List Char → Except Fault (List (List Char))
  | [] =>
    match s.faultAtEnd size with
    | some fault => .error fault
    | none => .ok [[]]
  | c :: cs =>
    match s.step position c cs.head? with
    | .error fault => .error fault
    | .ok (_, .unmatched) => .error ⟨.unmatched c, position⟩
    | .ok (s', event) =>
      match partsFrom separator size s' (position + 1) cs with
      | .error fault => .error fault
      | .ok parts =>
        if separates separator c event then .ok ([] :: parts) else .ok (consPart c parts)

/-- The parts of `source` between the separators outside brackets and literals. -/
def topLevelParts (source : String) (separator : String) : Except Fault (List String) :=
  match partsFrom separator source.length {} 0 source.toList with
  | .error fault => .error fault
  | .ok parts => .ok (parts.map String.ofList)

end Espalier.Scan
