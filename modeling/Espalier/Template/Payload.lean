import Espalier.Template.Load

/-!
# Textual payloads

Generation works on trees whose payloads are texts. Names, texts and code must be texts in the
description too. Expressions that are only copied into other source are shown if they are not.
-/

namespace Espalier.Template

/-- A payload that is a text. -/
def text? : Value → Option String
  | .str s => some s
  | _ => none

/-- A payload that is shown when it is no text; a false one counts as no text at all. -/
def shownOrEmpty (v : Value) : String :=
  if v.isTrue then v.display else ""

/-- An attribute whose name is a text. -/
def attributeText? (a : Attribute Value) : Option (Attribute String) := do
  return ⟨← text? a.name, a.value⟩

mutual

/-- A node whose payloads are texts. -/
def Node.texts? (n : Node Value) : Option (Node String) :=
  match n with
  | .block b => do return .block (← b.texts?)
  | .tag line name attrs spreads block code => do
    let name ← text? name
    let attrs ← attrs.mapM attributeText?
    let spreads ← spreads.mapM text?
    let block ← optionalTexts? block
    let code ← inlineTexts? code
    return .tag line name attrs spreads block code
  | .text line value => do return .text line (← text? value)
  | .code c => do return .code (← c.texts?)
  | .choice line subject block => do
    let block ← optionalTexts? block
    return .choice line (shownOrEmpty subject) block
  | .branch line label block => do
    let block ← optionalTexts? block
    return .branch line label.display block
  | .each line collection value key block alternative => do
    let block ← optionalTexts? block
    let alternative ← optionalTexts? alternative
    return .each line collection.display value.display (key.map (·.display)) block alternative
  | .slot line => return .slot line
  | .comment line value buffered => do return .comment line (← text? value) buffered
  | .blockComment line value block buffered => do
    let value ← text? value
    let block ← optionalTexts? block
    return .blockComment line value block buffered
  | .literal line value => do return .literal line (← text? value)
  | .doctype line value => return .doctype line value.display
  | .mixin line name args block isCall => do
    let block ← optionalTexts? block
    return .mixin line name.display (args.map (·.display)) block isCall
  | .filter line name block => do
    let block ← optionalTexts? block
    return .filter line name.display block
termination_by structural n

/-- A block whose payloads are texts. -/
def Block.texts? (b : Block Value) : Option (Block String) :=
  match b with
  | .mk line nodes => do return .mk line (← textsAll? nodes)
termination_by structural b

/-- Code whose payloads are texts. -/
def Code.texts? (c : Code Value) : Option (Code String) :=
  match c with
  | .mk line value buffered escaped block => do
    let value ← text? value
    let block ← optionalTexts? block
    return .mk line value buffered escaped block
termination_by structural c

/-- A block that may be missing, whose payloads are texts. -/
def optionalTexts? (block : Option (Block Value)) : Option (Option (Block String)) :=
  match block with
  | none => return none
  | some b => do return some (← b.texts?)
termination_by structural block

/-- Inline code that may be missing, whose payloads are texts. -/
def inlineTexts? (code : Option (Code Value)) : Option (Option (Code String)) :=
  match code with
  | none => return none
  | some c => do return some (← c.texts?)
termination_by structural code

/-- Nodes whose payloads are texts. -/
def textsAll? (nodes : List (Node Value)) : Option (List (Node String)) :=
  match nodes with
  | [] => return []
  | n :: rest => do return (← n.texts?) :: (← textsAll? rest)
termination_by structural nodes

end

/-- The template that a value describes, with textual payloads. -/
def loadTemplate (v : Value) : Except LoadFault (Node String) := do
  let node ← load v
  match node.texts? with
  | some n => return n
  | none => throw .wrongType

end Espalier.Template
