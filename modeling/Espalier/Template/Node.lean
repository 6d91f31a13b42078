import Espalier.Attribute

/-!
# Template trees

A template is a tree of nodes. The payload type `α` is the type of the pieces that an author wrote:
names, expressions and texts. A description may hold any value there, and generation works on trees
whose payloads are strings.
-/

namespace Espalier.Template

mutual

/-- A node of a template. -/
inductive Node (α : Type) where
  /-- Nodes in sequence. -/
  | block (b : Block α)
  /-- An element with attributes, objects spread over them, inline code and children. -/
  | tag (line : Int) (name : α) (attrs : List (Attribute α)) (spreads : List α)
      (block : Option (Block α)) (code : Option (Code α))
  /-- Text with interpolations. -/
  | text (line : Int) (value : α)
  /-- Embedded code. -/
  | code (c : Code α)
  /-- A choice by the value of a subject. -/
  | choice (line : Int) (subject : α) (block : Option (Block α))
  /-- A branch of a choice; the label `default` takes what no other branch takes. -/
  | branch (line : Int) (label : α) (block : Option (Block α))
  /-- Iteration over a collection, with an alternative for when it is empty. -/
  | each (line : Int) (collection value : α) (key : Option α)
      (block alternative : Option (Block α))
  /-- The place of the block that a caller hands over. -/
  | slot (line : Int)
  /-- A line comment, written out when it is buffered. -/
  | comment (line : Int) (value : α) (buffered : Bool)
  /-- A comment around a block, written out when it is buffered. -/
  | blockComment (line : Int) (value : α) (block : Option (Block α)) (buffered : Bool)
  /-- Source that is copied as it is. -/
  | literal (line : Int) (value : α)
  /-- A document type, which has no meaning for a render function. -/
  | doctype (line : Int) (value : α)
  /-- A reusable part or a use of one, which has no meaning for a render function. -/
  | mixin (line : Int) (name : α) (args : Option α) (block : Option (Block α)) (isCall : Bool)
  /-- A content filter, which has no meaning for a render function. -/
  | filter (line : Int) (name : α) (block : Option (Block α))

/-- Nodes in sequence. -/
inductive Block (α : Type) where
  | mk (line : Int) (nodes : List (Node α))

/-- Embedded code: buffered code is an expression to output, other code is copied. -/
inductive Code (α : Type) where
  | mk (line : Int) (value : α) (buffered escaped : Bool) (block : Option (Block α))

end

/-- The kinds of nodes. -/
inductive Kind where
  | block | tag | text | code | choice | branch | each | slot | comment | blockComment
  | literal | doctype | mixin | filter
  deriving DecidableEq, Repr

/-- The word that stands for a kind in descriptions and messages. -/
def Kind.word : Kind → String
  | .block => "Block" | .tag => "Tag" | .text => "Text" | .code => "Code"
  | .choice => "Case" | .branch => "When" | .each => "Each" | .slot => "MixinBlock"
  | .comment => "Comment" | .blockComment => "BlockComment" | .literal => "Literal"
  | .doctype => "Doctype" | .mixin => "Mixin" | .filter => "Filter"

/-- Every kind. -/
def Kind.all : List Kind :=
  [.block, .tag, .text, .code, .choice, .branch, .each, .slot, .comment, .blockComment,
    .literal, .doctype, .mixin, .filter]

/-- The kind that a word stands for. -/
def Kind.ofText? (word : String) : Option Kind :=
  Kind.all.find? (·.word == word)

/-- The kind of a node. -/
def Node.kind {α : Type} : Node α → Kind
  | .block _ => .block
  | .tag .. => .tag
  | .text .. => .text
  | .code _ => .code
  | .choice .. => .choice
  | .branch .. => .branch
  | .each .. => .each
  | .slot _ => .slot
  | .comment .. => .comment
  | .blockComment .. => .blockComment
  | .literal .. => .literal
  | .doctype .. => .doctype
  | .mixin .. => .mixin
  | .filter .. => .filter

end Espalier.Template
