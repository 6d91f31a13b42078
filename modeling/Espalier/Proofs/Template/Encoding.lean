import Espalier.Template.Payload

/-!
# Descriptions of trees

`Node.encode` writes a tree field by field as a template parser does; a part that is missing has no
field. Loading the description gives the tree back, for every tree whose choices all have a block:
`load_encode`. A missing field is read as what its absence stands for, so what a loader asks of the
fields is settled once for each way of asking (`get?_append`, `loadBlock_eq` and those after it).
-/

namespace Espalier.Template

/-! ## Trees with other payloads -/

/-- An attribute with another name. -/
def mapAttribute {α β : Type} (f : α → β) (a : Attribute α) : Attribute β :=
  ⟨f a.name, a.value⟩

section
variable {α β : Type}

mutual

/-- A tree with other payloads. -/
def Node.map (f : α → β) : Node α → Node β
  | .block b => .block (b.map f)
  | .tag line name attrs spreads block code =>
    .tag line (f name) (attrs.map (mapAttribute f)) (spreads.map f) (mapOptional f block)
      (mapInline f code)
  | .text line value => .text line (f value)
  | .code c => .code (c.map f)
  | .choice line subject block => .choice line (f subject) (mapOptional f block)
  | .branch line label block => .branch line (f label) (mapOptional f block)
  | .each line collection value key block alternative =>
    .each line (f collection) (f value) (key.map f) (mapOptional f block)
      (mapOptional f alternative)
  | .slot line => .slot line
  | .comment line value buffered => .comment line (f value) buffered
  | .blockComment line value block buffered =>
    .blockComment line (f value) (mapOptional f block) buffered
  | .literal line value => .literal line (f value)
  | .doctype line value => .doctype line (f value)
  | .mixin line name args block isCall =>
    .mixin line (f name) (args.map f) (mapOptional f block) isCall
  | .filter line name block => .filter line (f name) (mapOptional f block)

/-- A block with other payloads. -/
def Block.map (f : α → β) : Block α → Block β
  | .mk line nodes => .mk line (mapAll f nodes)

/-- Code with other payloads. -/
def Code.map (f : α → β) : Code α → Code β
  | .mk line value buffered escaped block =>
    .mk line (f value) buffered escaped (mapOptional f block)

/-- A block that may be missing, with other payloads. -/
def mapOptional (f : α → β) : Option (Block α) → Option (Block β)
  | none => none
  | some b => some (b.map f)

/-- Inline code that may be missing, with other payloads. -/
def mapInline (f : α → β) : Option (Code α) → Option (Code β)
  | none => none
  | some c => some (c.map f)

/-- Nodes with other payloads. -/
def mapAll (f : α → β) : List (Node α) → List (Node β)
  | [] => []
  | n :: rest => n.map f :: mapAll f rest

end

mutual

/-- Every choice of the tree has a block. -/
def Node.isComplete : Node α → Bool
  | .choice _ _ none => false
  | .choice _ _ (some b) => b.isComplete
  | .block b => b.isComplete
  | .tag _ _ _ _ block code => completeOptional block && completeInline code
  | .code c => c.isComplete
  | .branch _ _ block | .blockComment _ _ block _ | .mixin _ _ _ block _ | .filter _ _ block =>
    completeOptional block
  | .each _ _ _ _ block alternative => completeOptional block && completeOptional alternative
  | .text .. | .slot _ | .comment .. | .literal .. | .doctype .. => true

/-- Every choice in the block has a block. -/
def Block.isComplete : Block α → Bool
  | .mk _ nodes => completeAll nodes

/-- Every choice in the block of the code has a block. -/
def Code.isComplete : Code α → Bool
  | .mk _ _ _ _ block => completeOptional block

/-- Every choice has a block, in a block that may be missing. -/
def completeOptional : Option (Block α) → Bool
  | none => true
  | some b => b.isComplete

/-- Every choice has a block, in inline code that may be missing. -/
def completeInline : Option (Code α) → Bool
  | none => true
  | some c => c.isComplete

/-- Every choice in the nodes has a block. -/
def completeAll : List (Node α) → Bool
  | [] => true
  | n :: rest => n.isComplete && completeAll rest

end

end

/-! ## Descriptions -/

/-- A field for a value, if there is one. -/
def optionalField (key : String) : Option Value → Fields
  | none => []
  | some v => [(key, v)]

/-- The fields of a description: those that every kind has, and then the kind's own. -/
def describe (kind : Kind) (line : Int) (own : Fields) : Fields :=
  ("type", .str kind.word) :: ("line", .int line) :: own

/-- The description of an attribute. -/
def encodeAttribute (a : Attribute String) : Value :=
  .dict [("name", .str a.name), ("val", .str a.value)]

mutual

/-- The fields of a node's description. -/
def Node.fields : Node String → Fields
  | .block b => b.fields
  | .tag line name attrs spreads block code =>
    describe .tag line ([("name", .str name), ("attrs", .list (attrs.map encodeAttribute)),
      ("attributeBlocks", .list (spreads.map .str))] ++ optionalField "block" (encodeOptional block)
      ++ optionalField "code" (encodeInline code))
  | .text line value => describe .text line [("val", .str value)]
  | .code c => c.fields
  | .choice line subject block =>
    describe .choice line (("expr", .str subject) :: optionalField "block" (encodeOptional block))
  | .branch line label block =>
    describe .branch line (("expr", .str label) :: optionalField "block" (encodeOptional block))
  | .each line collection value key block alternative =>
    describe .each line ([("obj", .str collection), ("val", .str value)]
      ++ optionalField "key" (key.map .str) ++ optionalField "block" (encodeOptional block)
      ++ optionalField "alternative" (encodeOptional alternative))
  | .slot line => describe .slot line []
  | .comment line value buffered =>
    describe .comment line [("val", .str value), ("buffer", .bool buffered)]
  | .blockComment line value block buffered =>
    describe .blockComment line ([("val", .str value), ("buffer", .bool buffered)]
      ++ optionalField "block" (encodeOptional block))
  | .literal line value => describe .literal line [("str", .str value)]
  | .doctype line value => describe .doctype line [("val", .str value)]
  | .mixin line name args block isCall =>
    describe .mixin line ([("name", .str name), ("call", .bool isCall)]
      ++ optionalField "args" (args.map .str) ++ optionalField "block" (encodeOptional block))
  | .filter line name block =>
    describe .filter line (("name", .str name) :: optionalField "block" (encodeOptional block))

/-- The fields of a block's description. -/
def Block.fields : Block String → Fields
  | .mk line nodes => describe .block line [("nodes", .list (encodeAll nodes))]

/-- The fields of the description of code. -/
def Code.fields : Code String → Fields
  | .mk line value buffered escaped block =>
    describe .code line
      ([("val", .str value), ("buffer", .bool buffered), ("escape", .bool escaped)]
        ++ optionalField "block" (encodeOptional block))

/-- The description of a block that may be missing. -/
def encodeOptional : Option (Block String) → Option Value
  | none => none
  | some b => some (.dict b.fields)

/-- The description of inline code that may be missing. -/
def encodeInline : Option (Code String) → Option Value
  | none => none
  | some c => some (.dict c.fields)

/-- The descriptions of nodes. -/
def encodeAll : List (Node String) → List Value
  | [] => []
  | n :: rest => .dict n.fields :: encodeAll rest

end

/-- The description of a node. -/
def Node.encode (n : Node String) : Value :=
  .dict n.fields

/-! ## Reading fields -/

section
variable {fields fields' : Fields} {key k : String} {v : Value}

@[simp] theorem get?_nil : Fields.get? [] key = none := rfl

@[simp] theorem get?_cons : Fields.get? ((k, v) :: fields) key
    = if k = key then some v else fields.get? key := by
  unfold Fields.get?
  rw [field?]
  by_cases h : k = key
  · simp [h]
  · simp only [if_neg h, Option.map_map]
    rfl

@[simp] theorem get?_append : Fields.get? (fields ++ fields') key
    = (fields.get? key).or (fields'.get? key) := by
  induction fields with
  | nil => rfl
  | cons entry fields ih =>
    rw [List.cons_append, get?_cons, get?_cons, ih]
    split
    · rfl
    · rfl

@[simp] theorem get?_optionalField {value : Option Value} : (optionalField k value).get? key
    = if k = key then value else none := by
  cases value with
  | none => simp [optionalField, get?_nil]
  | some v => rw [optionalField, get?_cons, get?_nil]

/-- The fields that every kind has hide no others. -/
@[simp] theorem get?_describe {kind : Kind} {line : Int} (htype : "type" ≠ key)
    (hline : "line" ≠ key) :
    (describe kind line fields).get? key = fields.get? key := by
  rw [describe, get?_cons, if_neg htype, get?_cons, if_neg hline]

theorem Kind.ofText?_word (kind : Kind) : Kind.ofText? kind.word = some kind := by
  cases kind <;> rfl

theorem kind_describe {kind : Kind} {line : Int} :
    (describe kind line fields).kind = .ok kind := by
  have htype : (describe kind line fields).get? "type" = some (.str kind.word) := by
    rw [describe, get?_cons, if_pos rfl]
  rw [Fields.kind, htype]
  simp only [Kind.ofText?_word]

theorem line_describe {kind : Kind} {line : Int} :
    (describe kind line fields).line = .ok line := by
  have hline : (describe kind line fields).get? "line" = some (.int line) := by
    rw [describe, get?_cons, if_neg (by decide), get?_cons, if_pos rfl]
  rw [Fields.line, hline]
  by_cases h : line = 0
  · simp [Value.toLine, Value.isTrue, h]
  · simp [Value.toLine, Value.isTrue, h]

theorem required_of_get? (h : fields.get? key = some v) : fields.required key = .ok v := by
  rw [Fields.required, h]

theorem textOrEmpty_of_get? {text : String} (h : fields.get? key = some (.str text)) :
    fields.textOrEmpty key = .str text := by
  rw [Fields.textOrEmpty, h]
  by_cases hempty : text = ""
  · simp [Value.isTrue, hempty]
  · simp [Value.isTrue, hempty]

theorem flag_of_get? {b : Bool} (h : fields.get? key = some (.bool b)) : fields.flag key = b := by
  rw [Fields.flag, h]
  rfl

theorem flagOrTrue_of_get? {b : Bool} (h : fields.get? key = some (.bool b)) :
    fields.flagOrTrue key = b := by
  rw [Fields.flagOrTrue, h]
  rfl

theorem optional_of_get? {text : Option String} (h : fields.get? key = text.map .str) :
    fields.optional key = text.map .str := by
  rw [Fields.optional, h]
  cases text with
  | none => rfl
  | some text => rfl

theorem items_of_get? {items : List Value} (h : fields.get? key = some (.list items)) :
    fields.items key = .ok items := by
  rw [Fields.items, h]
  cases items with
  | nil => rfl
  | cons item items => rfl

theorem loadBlock_of_none (h : fields.get? key = none) : loadBlock fields key = .ok none := by
  have hfield : field? key fields = none := Option.map_eq_none_iff.1 h
  rw [loadBlock, hfield]

theorem loadBlock_of_some {inner : Fields} {b : Block Value}
    (h : fields.get? key = some (.dict inner)) (hinner : loadFields inner = .ok (.block b)) :
    loadBlock fields key = .ok (some b) := by
  obtain ⟨⟨v, hsmaller⟩, hfield, rfl⟩ := Option.map_eq_some_iff.1 h
  rw [loadBlock, hfield]
  simp only [load, hinner]
  rfl

theorem loadInlineCode_of_none (h : fields.get? "code" = none) :
    loadInlineCode fields = .ok none := by
  have hfield : field? "code" fields = none := Option.map_eq_none_iff.1 h
  rw [loadInlineCode, hfield]

theorem loadInlineCode_of_some {inner : Fields} {c : Code Value}
    (h : fields.get? "code" = some (.dict inner)) (hne : inner ≠ [])
    (hinner : loadCode inner = .ok c) : loadInlineCode fields = .ok (some c) := by
  obtain ⟨⟨v, hsmaller⟩, hfield, rfl⟩ := Option.map_eq_some_iff.1 h
  rw [loadInlineCode, hfield]
  have htrue : (Value.dict inner).isTrue = true := by simp [Value.isTrue, hne]
  simp only [htrue, hinner, Bool.not_true, Bool.false_eq_true, if_false]
  rfl

theorem loadNodes_of_get? {items : List Value} (h : fields.get? "nodes" = some (.list items)) :
    loadNodes fields = loadItems items := by
  obtain ⟨⟨v, hsmaller⟩, hfield, rfl⟩ := Option.map_eq_some_iff.1 h
  rw [loadNodes, hfield]
  cases items with
  | nil => rw [loadItems]; rfl
  | cons item items => rfl

theorem mapM_loadAttribute (attrs : List (Attribute String)) :
    (attrs.map encodeAttribute).mapM loadAttribute = .ok (attrs.map (mapAttribute .str)) := by
  induction attrs with
  | nil => rfl
  | cons a attrs ih =>
    rw [List.map_cons, List.mapM_cons, ih]
    rfl

end

/-! ## Loading descriptions -/

mutual

theorem Node.loadFields_fields : ∀ n : Node String, n.isComplete = true →
    loadFields n.fields = .ok (n.map .str)
  | .block b, h => b.loadFields_fields h
  | .tag line name attrs spreads block code, h => by
    obtain ⟨hblock, hcode⟩ := Bool.and_eq_true_iff.1 h
    rw [Node.fields, loadFields, kind_describe]
    generalize hfields : describe .tag line _ = fields
    have hline : fields.line = .ok line := hfields ▸ line_describe
    have hname : fields.get? "name" = some (.str name) := by simp [← hfields]
    have hattrs : fields.get? "attrs" = some (.list (attrs.map encodeAttribute)) := by
      simp [← hfields]
    have hspreads : fields.get? "attributeBlocks" = some (.list (spreads.map .str)) := by
      simp [← hfields]
    have hblockField : fields.get? "block" = encodeOptional block := by simp [← hfields]
    have hcodeField : fields.get? "code" = encodeInline code := by simp [← hfields]
    simp only [items_of_get? hattrs, items_of_get? hspreads, required_of_get? hname,
      loadBlock_encodeOptional block hblock hblockField,
      loadInlineCode_encodeInline code hcode hcodeField, hline, bind, Except.bind,
      mapM_loadAttribute]
    rfl
  | .text line value, _ => by
    rw [Node.fields, loadFields, kind_describe]
    generalize hfields : describe .text line _ = fields
    have hline : fields.line = .ok line := hfields ▸ line_describe
    have hvalue : fields.get? "val" = some (.str value) := by simp [← hfields]
    simp only [textOrEmpty_of_get? hvalue, hline]
    rfl
  | .code c, h => by
    obtain ⟨line, value, buffered, escaped, block⟩ := c
    have hload := Code.loadCode_fields (.mk line value buffered escaped block) h
    have hkind : (Code.mk line value buffered escaped block).fields.kind = .ok .code :=
      kind_describe
    rw [Node.fields, loadFields, hkind]
    simp only [hload]
    rfl
  | .choice line subject (some b), h => by
    rw [Node.fields, loadFields, kind_describe]
    generalize hfields : describe .choice line _ = fields
    have hline : fields.line = .ok line := hfields ▸ line_describe
    have hsubject : fields.get? "expr" = some (.str subject) := by simp [← hfields]
    have hblock : fields.get? "block" = encodeOptional (some b) := by simp [← hfields]
    simp only [required_of_get? hsubject, required_of_get? hblock,
      loadBlock_encodeOptional (some b) h hblock, hline]
    rfl
  | .branch line label block, h => by
    rw [Node.fields, loadFields, kind_describe]
    generalize hfields : describe .branch line _ = fields
    have hline : fields.line = .ok line := hfields ▸ line_describe
    have hlabel : fields.get? "expr" = some (.str label) := by simp [← hfields]
    have hblock : fields.get? "block" = encodeOptional block := by simp [← hfields]
    simp only [required_of_get? hlabel, loadBlock_encodeOptional block h hblock, hline]
    rfl
  | .each line collection value key block alternative, h => by
    obtain ⟨hblock, halternative⟩ := Bool.and_eq_true_iff.1 h
    rw [Node.fields, loadFields, kind_describe]
    generalize hfields : describe .each line _ = fields
    have hline : fields.line = .ok line := hfields ▸ line_describe
    have hcollection : fields.get? "obj" = some (.str collection) := by simp [← hfields]
    have hvalue : fields.get? "val" = some (.str value) := by simp [← hfields]
    have hkey : fields.get? "key" = key.map .str := by simp [← hfields]
    have hblockField : fields.get? "block" = encodeOptional block := by simp [← hfields]
    have hotherField : fields.get? "alternative" = encodeOptional alternative := by
      simp [← hfields]
    simp only [required_of_get? hcollection, required_of_get? hvalue, optional_of_get? hkey,
      loadBlock_encodeOptional block hblock hblockField,
      loadBlock_encodeOptional alternative halternative hotherField, hline]
    rfl
  | .slot line, _ => by
    rw [Node.fields, loadFields, kind_describe]
    simp only [line_describe]
    rfl
  | .comment line value buffered, _ => by
    rw [Node.fields, loadFields, kind_describe]
    generalize hfields : describe .comment line _ = fields
    have hline : fields.line = .ok line := hfields ▸ line_describe
    have hvalue : fields.get? "val" = some (.str value) := by simp [← hfields]
    have hbuffer : fields.get? "buffer" = some (.bool buffered) := by simp [← hfields]
    simp only [textOrEmpty_of_get? hvalue, flag_of_get? hbuffer, hline]
    rfl
  | .blockComment line value block buffered, h => by
    rw [Node.fields, loadFields, kind_describe]
    generalize hfields : describe .blockComment line _ = fields
    have hline : fields.line = .ok line := hfields ▸ line_describe
    have hvalue : fields.get? "val" = some (.str value) := by simp [← hfields]
    have hbuffer : fields.get? "buffer" = some (.bool buffered) := by simp [← hfields]
    have hblock : fields.get? "block" = encodeOptional block := by simp [← hfields]
    simp only [textOrEmpty_of_get? hvalue, flag_of_get? hbuffer,
      loadBlock_encodeOptional block h hblock, hline]
    rfl
  | .literal line value, _ => by
    rw [Node.fields, loadFields, kind_describe]
    generalize hfields : describe .literal line _ = fields
    have hline : fields.line = .ok line := hfields ▸ line_describe
    have hvalue : fields.get? "str" = some (.str value) := by simp [← hfields]
    simp only [required_of_get? hvalue, hline]
    rfl
  | .doctype line value, _ => by
    rw [Node.fields, loadFields, kind_describe]
    generalize hfields : describe .doctype line _ = fields
    have hline : fields.line = .ok line := hfields ▸ line_describe
    have hvalue : fields.get? "val" = some (.str value) := by simp [← hfields]
    simp only [textOrEmpty_of_get? hvalue, hline]
    rfl
  | .mixin line name args block isCall, h => by
    rw [Node.fields, loadFields, kind_describe]
    generalize hfields : describe .mixin line _ = fields
    have hline : fields.line = .ok line := hfields ▸ line_describe
    have hname : fields.get? "name" = some (.str name) := by simp [← hfields]
    have hcall : fields.get? "call" = some (.bool isCall) := by simp [← hfields]
    have hargs : fields.get? "args" = args.map .str := by simp [← hfields]
    have hblock : fields.get? "block" = encodeOptional block := by simp [← hfields]
    simp only [required_of_get? hname, optional_of_get? hargs, flag_of_get? hcall,
      loadBlock_encodeOptional block h hblock, hline]
    rfl
  | .filter line name block, h => by
    rw [Node.fields, loadFields, kind_describe]
    generalize hfields : describe .filter line _ = fields
    have hline : fields.line = .ok line := hfields ▸ line_describe
    have hname : fields.get? "name" = some (.str name) := by simp [← hfields]
    have hblock : fields.get? "block" = encodeOptional block := by simp [← hfields]
    simp only [required_of_get? hname, loadBlock_encodeOptional block h hblock, hline]
    rfl

theorem Block.loadFields_fields : ∀ b : Block String, b.isComplete = true →
    loadFields b.fields = .ok (.block (b.map .str))
  | .mk line nodes, h => by
    have hnodes : (Block.mk line nodes).fields.get? "nodes" = some (.list (encodeAll nodes)) := rfl
    have hkind : (Block.mk line nodes).fields.kind = .ok .block := kind_describe
    have hline : (Block.mk line nodes).fields.line = .ok line := line_describe
    rw [loadFields, hkind]
    simp only [loadNodes_of_get? hnodes, loadItems_encodeAll nodes h, hline]
    rfl

theorem Code.loadCode_fields : ∀ c : Code String, c.isComplete = true →
    loadCode c.fields = .ok (c.map .str)
  | .mk line value buffered escaped block, h => by
    rw [Code.fields, loadCode]
    generalize hfields : describe .code line _ = fields
    have hline : fields.line = .ok line := hfields ▸ line_describe
    have hvalue : fields.get? "val" = some (.str value) := by simp [← hfields]
    have hbuffer : fields.get? "buffer" = some (.bool buffered) := by simp [← hfields]
    have hescape : fields.get? "escape" = some (.bool escaped) := by simp [← hfields]
    have hblock : fields.get? "block" = encodeOptional block := by simp [← hfields]
    simp only [required_of_get? hvalue, flag_of_get? hbuffer, flagOrTrue_of_get? hescape,
      loadBlock_encodeOptional block h hblock, hline]
    rfl

theorem loadBlock_encodeOptional : ∀ (block : Option (Block String)) {fields : Fields}
    {key : String}, completeOptional block = true → fields.get? key = encodeOptional block →
    loadBlock fields key = .ok (mapOptional .str block)
  | none, _, _, _, hfield => loadBlock_of_none hfield
  | some b, _, _, h, hfield => loadBlock_of_some hfield (b.loadFields_fields h)

theorem loadInlineCode_encodeInline : ∀ (code : Option (Code String)) {fields : Fields},
    completeInline code = true → fields.get? "code" = encodeInline code →
    loadInlineCode fields = .ok (mapInline .str code)
  | none, _, _, hfield => loadInlineCode_of_none hfield
  | some (.mk _ _ _ _ _), _, h, hfield =>
    loadInlineCode_of_some hfield nofun (Code.loadCode_fields _ h)

theorem loadItems_encodeAll : ∀ nodes : List (Node String), completeAll nodes = true →
    loadItems (encodeAll nodes) = .ok (mapAll .str nodes)
  | [], _ => by
    rw [encodeAll, loadItems]
    rfl
  | n :: rest, h => by
    obtain ⟨hn, hrest⟩ := Bool.and_eq_true_iff.1 h
    rw [encodeAll, loadItems, load, n.loadFields_fields hn, loadItems_encodeAll rest hrest]
    rfl

end

/-! ## Payloads that are texts -/

theorem shownOrEmpty_str (text : String) : shownOrEmpty (.str text) = text := by
  by_cases h : text = ""
  · simp [shownOrEmpty, Value.isTrue, h]
  · simp [shownOrEmpty, Value.isTrue, Value.display, h]

theorem mapM_text? (texts : List String) : (texts.map Value.str).mapM text? = some texts := by
  induction texts with
  | nil => rfl
  | cons text texts ih =>
    rw [List.map_cons, List.mapM_cons, ih]
    rfl

theorem mapM_attributeText? (attrs : List (Attribute String)) :
    (attrs.map (mapAttribute Value.str)).mapM attributeText? = some attrs := by
  induction attrs with
  | nil => rfl
  | cons a attrs ih =>
    rw [List.map_cons, List.mapM_cons, ih]
    rfl

theorem map_display (text : Option String) : (text.map Value.str).map (·.display) = text := by
  cases text with
  | none => rfl
  | some text => rfl

mutual

/-- A tree whose payloads are texts comes back from the values that hold them. -/
theorem Node.texts?_map : ∀ n : Node String, (n.map .str).texts? = some n
  | .block b => by
    rw [Node.map, Node.texts?, b.texts?_map]
    rfl
  | .tag line name attrs spreads block code => by
    rw [Node.map, Node.texts?, mapM_attributeText?, mapM_text?, optionalTexts?_map block,
      inlineTexts?_map code]
    rfl
  | .code c => by
    rw [Node.map, Node.texts?, c.texts?_map]
    rfl
  | .choice line subject block => by
    rw [Node.map, Node.texts?, optionalTexts?_map block, shownOrEmpty_str]
    rfl
  | .branch line label block => by
    rw [Node.map, Node.texts?, optionalTexts?_map block]
    rfl
  | .each line collection value key block alternative => by
    rw [Node.map, Node.texts?, optionalTexts?_map block, optionalTexts?_map alternative,
      map_display]
    rfl
  | .blockComment line value block buffered => by
    rw [Node.map, Node.texts?, optionalTexts?_map block]
    rfl
  | .mixin line name args block isCall => by
    rw [Node.map, Node.texts?, optionalTexts?_map block, map_display]
    rfl
  | .filter line name block => by
    rw [Node.map, Node.texts?, optionalTexts?_map block]
    rfl
  | .text _ _ | .slot _ | .comment _ _ _ | .literal _ _ | .doctype _ _ => rfl

theorem Block.texts?_map : ∀ b : Block String, (b.map .str).texts? = some b
  | .mk line nodes => by
    rw [Block.map, Block.texts?, textsAll?_map nodes]
    rfl

theorem Code.texts?_map : ∀ c : Code String, (c.map .str).texts? = some c
  | .mk line value buffered escaped block => by
    rw [Code.map, Code.texts?, optionalTexts?_map block]
    rfl

theorem optionalTexts?_map : ∀ block : Option (Block String),
    optionalTexts? (mapOptional .str block) = some block
  | none => rfl
  | some b => by
    rw [mapOptional, optionalTexts?, b.texts?_map]
    rfl

theorem inlineTexts?_map : ∀ code : Option (Code String),
    inlineTexts? (mapInline .str code) = some code
  | none => rfl
  | some c => by
    rw [mapInline, inlineTexts?, c.texts?_map]
    rfl

theorem textsAll?_map : ∀ nodes : List (Node String), textsAll? (mapAll .str nodes) = some nodes
  | [] => rfl
  | n :: rest => by
    rw [mapAll, textsAll?, n.texts?_map, textsAll?_map rest]
    rfl

end

/-- Loading inverts the description of a tree in which every choice has a block: the tree comes
back, its texts as they were. -/
theorem load_encode (n : Node String) (h : n.isComplete = true) :
    load n.encode = .ok (n.map .str) ∧ loadTemplate n.encode = .ok n := by
  have hload : load n.encode = .ok (n.map .str) := by
    rw [Node.encode, load]
    exact n.loadFields_fields h
  refine ⟨hload, ?_⟩
  rw [loadTemplate, hload]
  simp only [bind, Except.bind, n.texts?_map]
  rfl

/-- A choice inside an iteration without key, next to a tag with a spread and inline code. -/
theorem load_encode_each :
    loadTemplate (Node.encode (.block (.mk 0 [
      .tag 1 "p" [⟨"id", "a"⟩] ["rest"] none (some (.mk 1 "title" true false none)),
      .each 2 "items" "item" none (some (.mk 3 [
        .choice (-4) "item" (some (.mk 5 [.branch 5 "default" none]))])) none])))
    = .ok (.block (.mk 0 [
      .tag 1 "p" [⟨"id", "a"⟩] ["rest"] none (some (.mk 1 "title" true false none)),
      .each 2 "items" "item" none (some (.mk 3 [
        .choice (-4) "item" (some (.mk 5 [.branch 5 "default" none]))])) none])) :=
  (load_encode _ rfl).2

end Espalier.Template
