import Espalier.Emission

/-!
# Sessions

A session works on an emission step by step. Captures and function scopes may be nested in any way;
each is closed before the one around it. A capture gives back the fragments it collected.
-/

namespace Espalier

/-- What is restored when a context is closed. -/
inductive Context where
  | capture (saved : Array String)
  | scope (saved : List String)
  deriving DecidableEq, Repr

/-- An emission and the contexts open on it, innermost first. -/
structure Session where
  emission : Emission := {}
  contexts : List Context := []
  deriving DecidableEq, Repr

/-- One step of a session. -/
inductive Session.Step where
  | emit (fragments : List String)
  | temporary (depth : Int) (init : Option String)
  | source
  | use (helper : Helper)
  | capture
  | scope
  /-- Close the innermost context. -/
  | close
  deriving DecidableEq, Repr

/-- What a step gives back. -/
inductive Session.Answer where
  | nothing
  | text (s : String)
  | fragments (captured : List String)
  deriving DecidableEq, Repr

/-- Take one step. -/
def Session.step (s : Session) : Session.Step → Session × Session.Answer
  | .emit fragments => ({ s with emission := s.emission.emit fragments }, .nothing)
  | .temporary depth init =>
    let (emission, name) := s.emission.temporary depth init
    ({ s with emission }, .text name)
  | .source => (s, .text s.emission.source)
  | .use helper => ({ s with emission := s.emission.use helper }, .text helper.name)
  | .capture =>
    (⟨s.emission.capture, .capture s.emission.fragments :: s.contexts⟩, .nothing)
  | .scope =>
    (⟨s.emission.enterFunction, .scope s.emission.declared :: s.contexts⟩, .nothing)
  | .close =>
    match s.contexts with
    | [] => (s, .nothing)
    | .capture saved :: contexts =>
      (⟨s.emission.release saved, contexts⟩, .fragments s.emission.fragments.toList)
    | .scope saved :: contexts => (⟨s.emission.leaveFunction saved, contexts⟩, .nothing)

/-- The declared variables in the order of their code points. -/
def Session.declaredSorted (s : Session) : List String :=
  s.emission.declared.mergeSort (· ≤ ·)

end Espalier
