import Espalier.Template.Node
import Espalier.Value.Line

/-!
# Loading descriptions

A template is described by nested mappings with a `type` field, as a template parser writes them.
`load` builds the tree. Optional fields may be missing or null; of the required ones only their
presence is checked, and a payload may be any value. Fields are looked at in a fixed order, which
decides between two faults of one description.
-/

namespace Espalier.Template

/-- Why a description is no template. -/
inductive LoadFault where
  /-- A required field is missing. -/
  | missing (owner field : String)
  /-- The type names no kind of node; `shown` is the type as it is shown. -/
  | unknownKind (shown : String)
  /-- A node of another kind stands where a block belongs. -/
  | notBlock (found : Kind)
  /-- A line number is no numeral. -/
  | notNumeral
  /-- A value has a type that cannot be used in its place. -/
  | wrongType
  /-- Something other than a mapping stands where a node belongs. -/
  | notMapping
  deriving DecidableEq, Repr

/-- The wording of a fault that speaks of the template itself. The others concern single values and
have none. -/
def LoadFault.message? : LoadFault → Option String
  | .missing owner field => some (owner ++ " node is missing required field '" ++ field ++ "'")
  | .unknownKind shown => some ("Unknown template node type: " ++ shown)
  | .notBlock found => some ("Expected a Block, got " ++ found.word)
  | .notNumeral | .wrongType | .notMapping => none

/-- The fields of a mapping. -/
abbrev Fields := List (String × Value)

/-- The value of a field, which is smaller than the mapping. -/
def field? (key : String) : (fields : Fields) → Option { v : Value // sizeOf v < sizeOf fields }
  | [] => none
  | (k, v) :: rest =>
    if k = key then some ⟨v, by simp; omega⟩
    else (field? key rest).map fun found => ⟨found.1, by have := found.2; simp; omega⟩

/-- The value of a field. -/
def Fields.get? (fields : Fields) (key : String) : Option Value :=
  (field? key fields).map (·.1)

/-- The value of a field that must be there. -/
def Fields.required (fields : Fields) (key : String) : Except LoadFault Value :=
  match fields.get? key with
  | some v => .ok v
  | none =>
    let owner :=
      match fields.get? "type" with
      | some kind => kind.display
      | none => "<untyped>"
    .error (.missing owner key)

/-- The truth of a field; a missing one is false. -/
def Fields.flag (fields : Fields) (key : String) : Bool :=
  (fields.get? key).any (·.isTrue)

/-- The truth of a field; a missing one is true. -/
def Fields.flagOrTrue (fields : Fields) (key : String) : Bool :=
  (fields.get? key).all (·.isTrue)

/-- A field that may be missing or null. -/
def Fields.optional (fields : Fields) (key : String) : Option Value :=
  match fields.get? key with
  | none | some .null => none
  | some v => some v

/-- The value of a field with text; missing and false values count as the empty text. -/
def Fields.textOrEmpty (fields : Fields) (key : String) : Value :=
  match fields.get? key with
  | some v => if v.isTrue then v else .str ""
  | none => .str ""

/-- The line number of a node. -/
def Fields.line (fields : Fields) : Except LoadFault Int :=
  match fields.get? "line" with
  | none => .ok 0
  | some v =>
    match v.toLine with
    | .ok line => .ok line
    | .error .notNumeral => .error .notNumeral
    | .error .notNumber => .error .wrongType

/-- The source of an attribute's value: truth values are written as such, other values as text. -/
def attributeValue : Value → String
  | .bool b => if b then "true" else "false"
  | other => other.display

/-- One attribute. -/
def loadAttribute : Value → Except LoadFault (Attribute Value)
  | .dict fields => do
    let name ← Fields.required fields "name"
    let value ← Fields.required fields "val"
    return ⟨name, attributeValue value⟩
  | _ => .error .wrongType

/-- The items of a field. Missing and false values count as no items, a text is the sequence of its
characters and a mapping the sequence of its keys. -/
def Fields.items (fields : Fields) (key : String) : Except LoadFault (List Value) :=
  match fields.get? key with
  | none => .ok []
  | some v =>
    if !v.isTrue then .ok []
    else
      match v with
      | .list items => .ok items
      | .str text => .ok (text.toList.map fun c => .str (String.singleton c))
      | .dict inner => .ok (inner.map fun entry => .str entry.1)
      | _ => .error .wrongType

/-- The kind of node that a mapping describes. -/
def Fields.kind (fields : Fields) : Except LoadFault Kind :=
  match fields.get? "type" with
  | some (.str word) =>
    match Kind.ofText? word with
    | some kind => .ok kind
    | none => .error (.unknownKind (Value.str word).shown)
  | some (.list _) | some (.dict _) => .error .wrongType
  | some other => .error (.unknownKind other.shown)
  | none => .error (.unknownKind Value.null.shown)

/-- A node that must be a block. -/
def asBlock : Node Value → Except LoadFault (Block Value)
  | .block b => .ok b
  | other => .error (.notBlock other.kind)

mutual

/-- The node that a value describes. -/
def load (v : Value) : Except LoadFault (Node Value) :=
  match v with
  | .dict fields => loadFields fields
  | _ => .error .notMapping
termination_by (sizeOf v, 0)

/-- The node that a mapping describes. -/
def loadFields (fields : Fields) : Except LoadFault (Node Value) := do
  match ← fields.kind with
  | .block =>
    let nodes ← loadNodes fields
    return .block (.mk (← fields.line) nodes)
  | .tag =>
    let attrs ← (← fields.items "attrs").mapM loadAttribute
    let spreads ← fields.items "attributeBlocks"
    let name ← fields.required "name"
    let block ← loadBlock fields "block"
    let code ← loadInlineCode fields
    return .tag (← fields.line) name attrs spreads block code
  | .text => return .text (← fields.line) (fields.textOrEmpty "val")
  | .code => return .code (← loadCode fields)
  | .choice =>
    let subject ← fields.required "expr"
    let _ ← fields.required "block"
    let block ← loadBlock fields "block"
    return .choice (← fields.line) subject block
  | .branch =>
    let label ← fields.required "expr"
    let block ← loadBlock fields "block"
    return .branch (← fields.line) label block
  | .each =>
    let collection ← fields.required "obj"
    let value ← fields.required "val"
    let block ← loadBlock fields "block"
    let alternative ← loadBlock fields "alternative"
    return .each (← fields.line) collection value (fields.optional "key") block alternative
  | .slot => return .slot (← fields.line)
  | .comment =>
    return .comment (← fields.line) (fields.textOrEmpty "val") (fields.flag "buffer")
  | .blockComment =>
    let block ← loadBlock fields "block"
    return .blockComment (← fields.line) (fields.textOrEmpty "val") block (fields.flag "buffer")
  | .literal =>
    let value ← fields.required "str"
    return .literal (← fields.line) value
  | .doctype => return .doctype (← fields.line) (fields.textOrEmpty "val")
  | .mixin =>
    let name ← fields.required "name"
    let block ← loadBlock fields "block"
    return .mixin (← fields.line) name (fields.optional "args") block (fields.flag "call")
  | .filter =>
    let name ← fields.required "name"
    let block ← loadBlock fields "block"
    return .filter (← fields.line) name block
termination_by (sizeOf fields, 2)

/-- Embedded code. -/
def loadCode (fields : Fields) : Except LoadFault (Code Value) := do
  let value ← fields.required "val"
  let block ← loadBlock fields "block"
  return .mk (← fields.line) value (fields.flag "buffer") (fields.flagOrTrue "escape") block
termination_by (sizeOf fields, 1)

/-- The inline code of a tag, which is code whatever its type says. -/
def loadInlineCode (fields : Fields) : Except LoadFault (Option (Code Value)) :=
  match field? "code" fields with
  | none => .ok none
  | some ⟨v, smaller⟩ =>
    if !v.isTrue then .ok none
    else
      match v, smaller with
      | .dict inner, smaller =>
        have : sizeOf inner < sizeOf fields := by simp at smaller; omega
        some <$> loadCode inner
      | _, _ => .error .wrongType
termination_by (sizeOf fields, 0)

/-- A block in a field that may be missing or null. -/
def loadBlock (fields : Fields) (key : String) : Except LoadFault (Option (Block Value)) :=
  match field? key fields with
  | none | some ⟨.null, _⟩ => .ok none
  | some ⟨v, _⟩ => do
    let node ← load v
    return some (← asBlock node)
termination_by (sizeOf fields, 0)

/-- The children of a block. The characters of a text and the keys of a mapping are no nodes. -/
def loadNodes (fields : Fields) : Except LoadFault (List (Node Value)) :=
  match field? "nodes" fields with
  | none => .ok []
  | some ⟨v, smaller⟩ =>
    if !v.isTrue then .ok []
    else
      match v, smaller with
      | .list items, smaller =>
        have : sizeOf items < sizeOf fields := by simp at smaller; omega
        loadItems items
      | .str _, _ | .dict _, _ => .error .notMapping
      | _, _ => .error .wrongType
termination_by (sizeOf fields, 0)

/-- The nodes of a list. -/
def loadItems (items : List Value) : Except LoadFault (List (Node Value)) :=
  match items with
  | [] => .ok []
  | item :: rest => do
    let node ← load item
    return node :: (← loadItems rest)
termination_by (sizeOf items, 0)

end

end Espalier.Template
