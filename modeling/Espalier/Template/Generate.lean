import Espalier.Emission
import Espalier.Interpolation
import Espalier.Template.Node

/-!
# Generated source

A template becomes source in which elements and output are calls of reserved names. `Node.visit`
extends an emission by the source of a node; a visit either succeeds as a whole or reports the first
offending node it meets.
-/

namespace Espalier.Template

/-- Why a template has no source. -/
inductive GenerateFault where
  /-- A node that is never accepted. -/
  | unsupported (kind : Kind) (line : Int)
  /-- An interpolation that cannot be read, in the text that holds it. -/
  | interpolation (text : String) (fault : Scan.Fault)
  /-- A choice without a block. -/
  | emptyChoice
  deriving DecidableEq, Repr

/-- A fault, and the helpers that had been asked for by then. -/
structure GenerateFailure where
  fault : GenerateFault
  helpers : List Helper
  deriving DecidableEq, Repr

/-- Stop at a fault. -/
def refuse (s : Emission) (fault : GenerateFault) : Except GenerateFailure Emission :=
  .error ⟨fault, s.helpers⟩

/-- Text as one statement for each of its segments. -/
def emitText (value : String) (s : Emission) : Except GenerateFailure Emission :=
  match interpolate value with
  | (segments, none) => .ok (s.emit (segments.map fun segment => segment.outputCall ++ ";\n"))
  | (_, some fault) => refuse s (.interpolation value fault)

/-- The statement that constructs an element, and the opening of its children's block. -/
def emitElement (name : String) (attrs : List (Attribute String)) (spreads : List String)
    (s : Emission) : Emission :=
  let (props, helpers) := propertiesOf attrs spreads s.helpers
  { s with helpers }.emit [Marker.call Marker.element [elementType name, props], ";\n\x7b\n"]

/-- The statement of embedded code: output when it is buffered, and a copy otherwise. -/
def emitCode (value : String) (buffered escaped : Bool) (s : Emission) : Emission :=
  if buffered then
    s.emit [Marker.call (if escaped then Marker.text else Marker.raw) [value], ";\n"]
  else s.emit [value, "\n"]

/-- The opening of a branch. -/
def emitLabel (label : String) (s : Emission) : Emission :=
  s.emit [if label = "default" then "default:\n" else "case " ++ label ++ ":\n"]

/-- The parameters of an iteration's function. -/
def eachParams (value : String) : Option String → String
  | none => value
  | some key => value ++ "," ++ key

/-- Source with every end of a block comment broken up, so that it can stand inside a comment. -/
def breakCommentEnds : List Char → List Char
  | [] => []
  | '*' :: '/' :: cs => '*' :: ' ' :: '/' :: breakCommentEnds cs
  | c :: cs => c :: breakCommentEnds cs

/-- Begin the body of a function. It has temporary variables of its own, and its source is
collected apart. -/
def enterBody (s : Emission) : Emission :=
  s.enterFunction.capture

/-- End the body of a function: back to what `outer` had, with the body's source. -/
def leaveBody (outer inner : Emission) : Emission × String :=
  ((inner.release outer.fragments).leaveFunction outer.declared, inner.source)

mutual

/-- Extend an emission by the source of a node. -/
def Node.visit (n : Node String) (s : Emission) : Except GenerateFailure Emission :=
  match n with
  | .block b => b.visit s
  | .tag _ name attrs spreads block code => do
    let s := emitElement name attrs spreads s.deeper
    let s ← emitInline code s
    let s ← visitOptional block s
    return (s.emit ["\x7d\n"]).shallower
  | .text _ value => do return (← emitText value s.deeper).shallower
  | .code c => do return (← c.emit s.deeper).shallower
  | .choice _ subject block => do
    let (s, name) := s.deeper.temporary s.deeper.depth (some subject)
    let s := s.emit ["switch(" ++ name ++ ")\x7b\n"]
    match block with
    | some b => return ((← b.visit s).emit ["\x7d\n"]).shallower
    | none => refuse s .emptyChoice
  | .branch _ label block => do
    let s ← visitOptional block (emitLabel label s.deeper)
    return (s.emit ["break;\n"]).shallower
  | .each _ collection value key block alternative => do
    let s := s.deeper.use .iterate
    let (s, body) := leaveBody s (← visitOptional block (enterBody s))
    let (s, other) := leaveBody s (← visitOptional alternative (enterBody s))
    let tail := if alternative.isSome then ",function()\x7b\n" ++ other ++ "\x7d" else ""
    let source := Marker.iterate ++ "(" ++ collection ++ ",function(" ++ eachParams value key
      ++ ")\x7b\n" ++ body ++ "\x7d" ++ tail ++ ")"
    return (s.emit [source, ";\n"]).shallower
  | .slot _ =>
    return (s.deeper.emit [Marker.call Marker.text ["block ? block() : null"], ";\n"]).shallower
  | .comment _ value buffered =>
    return (if buffered then s.emit ["//", value, "\n"] else s)
  | .blockComment _ value block buffered =>
    if buffered then do
      let inner ← visitOptional block (s.deeper.capture.emit ["/*", value, "\n"])
      let text := String.ofList (breakCommentEnds inner.source.toList)
      return ((inner.release s.fragments).emit [text, "*/", "\n"]).shallower
    else return s
  | .literal _ value => return s.emit [value, "\n"]
  | .doctype line _ => refuse s (.unsupported .doctype line)
  | .mixin line _ _ _ _ => refuse s (.unsupported .mixin line)
  | .filter line _ _ => refuse s (.unsupported .filter line)
termination_by structural n

/-- Extend an emission by the source of a block. -/
def Block.visit (b : Block String) (s : Emission) : Except GenerateFailure Emission :=
  match b with
  | .mk _ nodes => do return (← visitAll nodes s.deeper).shallower
termination_by structural b

/-- Extend an emission by the source of a block, if there is one. -/
def visitOptional (block : Option (Block String)) (s : Emission) :
    Except GenerateFailure Emission :=
  match block with
  | none => return s
  | some b => b.visit s
termination_by structural block

/-- Extend an emission by the source of nodes in sequence. -/
def visitAll (nodes : List (Node String)) (s : Emission) : Except GenerateFailure Emission :=
  match nodes with
  | [] => return s
  | n :: rest => do visitAll rest (← n.visit s)
termination_by structural nodes

/-- Extend an emission by embedded code at the current depth. The block of unbuffered code is put
in braces, since such code is usually the head of a statement. -/
def Code.emit (c : Code String) (s : Emission) : Except GenerateFailure Emission :=
  match c with
  | .mk _ value buffered escaped block => do
    let s := emitCode value buffered escaped s
    match block with
    | none => return s
    | some b =>
      if buffered then b.visit s
      else return (← b.visit (s.emit ["\x7b\n"])).emit ["\x7d\n"]
termination_by structural c

/-- Extend an emission by the inline code of a tag, if there is some. -/
def emitInline (code : Option (Code String)) (s : Emission) : Except GenerateFailure Emission :=
  match code with
  | none => return s
  | some c => c.emit s
termination_by structural code

end

/-- The source of a template and the helpers it calls. -/
structure Intermediate where
  source : String
  fragments : Nat
  helpers : List Helper
  deriving DecidableEq, Repr

/-- Generate the source of a template. -/
def Node.generate (n : Node String) : Except GenerateFailure Intermediate :=
  match n.visit {} with
  | .error failure => .error failure
  | .ok s => .ok ⟨s.source, s.fragments.size, s.helpers⟩

end Espalier.Template
