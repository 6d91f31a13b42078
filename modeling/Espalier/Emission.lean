import Espalier.Helper

/-!
# Emitted source

Generated source is collected as a sequence of fragments. An `Emission` holds the fragments so far,
the nesting depth, the temporary variables that the current function has declared and the helpers
that were asked for.
-/

namespace Espalier

/-- Source under construction. -/
structure Emission where
  fragments : Array String := #[]
  /-- The nesting depth; -1 outside the root. -/
  depth : Int := -1
  /-- Temporary variables of the current function, in order of declaration. -/
  declared : List String := []
  /-- Helpers in order of first use. -/
  helpers : List Helper := []
  deriving DecidableEq, Repr

namespace Emission

/-- Append fragments. -/
def emit (s : Emission) (fragments : List String) : Emission :=
  { s with fragments := s.fragments ++ fragments.toArray }

/-- The source emitted so far. -/
def source (s : Emission) : String :=
  String.join s.fragments.toList

/-- Ask for a helper. -/
def use (s : Emission) (h : Helper) : Emission :=
  { s with helpers := h.request s.helpers }

/-- One nesting level deeper. -/
def deeper (s : Emission) : Emission :=
  { s with depth := s.depth + 1 }

/-- One nesting level less deep. -/
def shallower (s : Emission) : Emission :=
  { s with depth := s.depth - 1 }

/-- The initial value in an assignment; the empty source counts as none. -/
def initial? (init : Option String) : Option String :=
  init.filter (· ≠ "")

/-- Make the temporary variable of a depth available and give its name. The first request in a
function declares it; later ones only assign, and do nothing without a value. -/
def temporary (s : Emission) (depth : Int) (init : Option String) : Emission × String :=
  let name := Marker.temporary depth
  if name ∈ s.declared then
    match initial? init with
    | some value => (s.emit [name ++ "=" ++ value ++ ";\n"], name)
    | none => (s, name)
  else
    let declaration :=
      match initial? init with
      | some value => "var " ++ name ++ "=" ++ value ++ ";\n"
      | none => "var " ++ name ++ ";\n"
    ({ s.emit [declaration] with declared := s.declared ++ [name] }, name)

/-- Begin to collect fragments apart. -/
def capture (s : Emission) : Emission :=
  { s with fragments := #[] }

/-- Go back to the fragments that were there before. -/
def release (s : Emission) (saved : Array String) : Emission :=
  { s with fragments := saved }

/-- Enter a function, which has no temporary variables yet. -/
def enterFunction (s : Emission) : Emission :=
  { s with declared := [] }

/-- Leave a function and come back to the variables of the one around it. -/
def leaveFunction (s : Emission) (saved : List String) : Emission :=
  { s with declared := saved }

end Emission

end Espalier
