import Espalier.Proofs.Template.Comments
import Espalier.Proofs.Template.Unmarked

/-!
# Elements in generated source

Wherever the name that constructs elements stands in generated source, all that was generated for
the element follows: its call, and the block with its inline code and its children. `Announced` says
so of a text, with a property that the text of every element has. Main statement:
`Node.visit_announced`, by which the source of a template whose author writes no reserved names is
such a text.
-/

namespace Espalier.Template

open Espalier.Text

/-! ## What authors write -/

mutual

/-- The texts in a node that its author wrote. -/
def Node.authored : Node String → List String
  | .block b => b.authored
  | .tag _ name attrs spreads block code =>
    name :: attrs.map (·.name) ++ attrs.map (·.value) ++ spreads ++ authoredOptional block
      ++ authoredInline code
  | .text _ value => [value]
  | .code c => c.authored
  | .choice _ subject block => subject :: authoredOptional block
  | .branch _ label block => label :: authoredOptional block
  | .each _ collection value key block alternative =>
    collection :: value :: key.toList ++ authoredOptional block ++ authoredOptional alternative
  | .slot _ => []
  | .comment _ value _ => [value]
  | .blockComment _ value block _ => value :: authoredOptional block
  | .literal _ value => [value]
  | .doctype _ value => [value]
  | .mixin _ name args block _ => name :: args.toList ++ authoredOptional block
  | .filter _ name block => name :: authoredOptional block
termination_by structural n => n

/-- The texts in a block that its author wrote. -/
def Block.authored : Block String → List String
  | .mk _ nodes => authoredAll nodes
termination_by structural b => b

/-- The texts in code that its author wrote. -/
def Code.authored : Code String → List String
  | .mk _ value _ _ block => value :: authoredOptional block
termination_by structural c => c

/-- `authored` for a block that may be missing. -/
def authoredOptional : Option (Block String) → List String
  | none => []
  | some b => b.authored
termination_by structural block => block

/-- `authored` for inline code that may be missing. -/
def authoredInline : Option (Code String) → List String
  | none => []
  | some c => c.authored
termination_by structural code => code

/-- `authored` for nodes in sequence. -/
def authoredAll : List (Node String) → List String
  | [] => []
  | n :: rest => n.authored ++ authoredAll rest
termination_by structural nodes => nodes

end

/-- The arguments of the call that constructs an element. -/
def elementArgs (name : String) (attrs : List (Attribute String)) (spreads : List String) :
    List Char :=
  (elementType name).toList ++ ',' :: (propertiesOf attrs spreads []).1.toList

mutual

/-- The text is generated for an element of the node: it is what a visit of the element adds to the
source. -/
def Node.Writes : Node String → List Char → Prop
  | .block b, text => b.Writes text
  | .tag line name attrs spreads block code, text =>
    (∃ s s' : Emission, (Node.tag line name attrs spreads block code).visit s = .ok s' ∧
      s'.source.toList = s.source.toList ++ text) ∨ writesOptional block text ∨
      writesInline code text
  | .text .., _ | .slot _, _ | .comment .., _ | .literal .., _ | .doctype .., _ => False
  | .code c, text => c.Writes text
  | .choice _ _ block, text => writesOptional block text
  | .branch _ _ block, text => writesOptional block text
  | .each _ _ _ _ block alternative, text =>
    writesOptional block text ∨ writesOptional alternative text
  | .blockComment _ _ block buffered, text =>
    -- the ends of comments are broken up inside a comment
    buffered = true ∧ ∃ inner, writesOptional block inner ∧ text = breakCommentEnds inner
  | .mixin _ _ _ block _, text => writesOptional block text
  | .filter _ _ block, text => writesOptional block text
termination_by structural n => n

/-- `Writes` for a block. -/
def Block.Writes : Block String → List Char → Prop
  | .mk _ nodes, text => writesAll nodes text
termination_by structural b => b

/-- `Writes` for code. -/
def Code.Writes : Code String → List Char → Prop
  | .mk _ _ _ _ block, text => writesOptional block text
termination_by structural c => c

/-- `Writes` for a block that may be missing. -/
def writesOptional : Option (Block String) → List Char → Prop
  | none, _ => False
  | some b, text => b.Writes text
termination_by structural block => block

/-- `Writes` for inline code that may be missing. -/
def writesInline : Option (Code String) → List Char → Prop
  | none, _ => False
  | some c, text => c.Writes text
termination_by structural code => code

/-- `Writes` for nodes in sequence. -/
def writesAll : List (Node String) → List Char → Prop
  | [], _ => False
  | n :: rest, text => n.Writes text ∨ writesAll rest text
termination_by structural nodes => nodes

end

/-! ## Announced elements -/

/-- The text of an element behind the first letter of its name, up to the end of a line, and what
stands behind it. -/
def heralded (text rest : List Char) : List Char :=
  "DOM＿(".toList ++ (text ++ '\n' :: rest)

-- unfolding goes through the characters of the literal, rewriting does not
theorem heralded_eq (text rest : List Char) :
    heralded text rest = "DOM＿(".toList ++ (text ++ '\n' :: rest) := rfl

/-- The text behind the first letter of a reserved name: another name, or that of elements and all
that belongs to one. -/
def Heralds (p : List Char → Prop) (cs : List Char) : Prop :=
  (∃ c, cs.head? = some c ∧ c ≠ 'D') ∨
    ∃ text rest, p (Marker.opening :: heralded text []) ∧ cs = heralded text rest

/-- In the text, all that belongs to an element follows its name. -/
inductive Announced (p : List Char → Prop) : List Char → Prop
  | nil : Announced p []
  | cons {c : Char} {cs : List Char} : (c = Marker.opening → Heralds p cs) → Announced p cs →
    Announced p (c :: cs)

section
variable {p q : List Char → Prop} {cs cs' a b : List Char}

theorem Heralds.append (h : Heralds p a) : Heralds p (a ++ b) := by
  obtain ⟨c, hhead, hc⟩ | ⟨text, rest, htext, rfl⟩ := h
  · exact .inl ⟨c, by rw [List.head?_append, hhead]; rfl, hc⟩
  · exact .inr ⟨text, rest ++ b, htext, by simp [heralded_eq]⟩

theorem Announced.append (ha : Announced p a) (hb : Announced p b) : Announced p (a ++ b) := by
  induction ha with
  | nil => exact hb
  | cons hc _ ih => exact .cons (fun heq => (hc heq).append) ih

theorem Announced.tail {c : Char} (h : Announced p (c :: cs)) : Announced p cs := by
  cases h
  assumption

theorem Announced.heralds (h : Announced p (Marker.opening :: cs)) : Heralds p cs := by
  cases h with
  | cons hc _ => exact hc rfl

theorem announced_of_not_mem (h : Marker.opening ∉ cs) : Announced p cs := by
  induction cs with
  | nil => exact .nil
  | cons c cs ih =>
    rw [List.mem_cons, not_or] at h
    exact .cons (fun hc => absurd hc.symm h.1) (ih h.2)

theorem announced_of_unmarked {text : String} (h : Unmarked text) : Announced p text.toList :=
  announced_of_not_mem h

/-- A reserved name other than that of elements. -/
theorem announced_reserve {core : String} {c : Char} (hcore : core.toList.head? = some c)
    (hc : c ≠ 'D') (hunmarked : Unmarked core) : Announced p (Marker.reserve core).toList := by
  have htext :
      (Marker.reserve core).toList = Marker.opening :: (core.toList ++ [Marker.closing]) := by
    simp [Marker.reserve]
  rw [htext]
  refine .cons (fun _ => ?_)
    ((announced_of_unmarked hunmarked).append (announced_of_not_mem (by decide)))
  exact .inl ⟨c, by rw [List.head?_append, hcore]; rfl, hc⟩

/-- An element and all that belongs to it. -/
theorem announced_element (hp : p (Marker.opening :: heralded a [])) (ha : Announced p a) :
    Announced p (Marker.opening :: heralded a []) := by
  refine .cons (fun _ => .inr ⟨a, [], hp, rfl⟩) ((announced_of_not_mem (by decide)).append ?_)
  exact ha.append (announced_of_not_mem (by decide))

/-! ## Comments -/

theorem breakCommentEnds_cons {c : Char} (h : c = '*' → cs.head? ≠ some '/') :
    breakCommentEnds (c :: cs) = c :: breakCommentEnds cs := by
  rw [breakCommentEnds]
  rintro rest rfl rfl
  exact h rfl rfl

theorem breakCommentEnds_append {c : Char} (hc : c ≠ '/') :
    breakCommentEnds (a ++ c :: b) = breakCommentEnds a ++ breakCommentEnds (c :: b) := by
  fun_induction breakCommentEnds a with
  | case1 => rfl
  | case2 a ih =>
    rw [List.cons_append, List.cons_append, breakCommentEnds, ih]
    rfl
  | case3 d a hend ih =>
    rw [List.cons_append, breakCommentEnds_cons, ih]
    · rfl
    · rintro rfl hslash
      cases a with
      | nil => exact hc (Option.some.inj hslash)
      | cons e a =>
        cases hslash
        exact hend a rfl rfl

theorem breakCommentEnds_heralded (text rest : List Char) :
    breakCommentEnds (heralded text rest)
      = heralded (breakCommentEnds text) (breakCommentEnds rest) := by
  have htext : breakCommentEnds (text ++ '\n' :: rest)
      = breakCommentEnds text ++ '\n' :: breakCommentEnds rest :=
    breakCommentEnds_append (by decide)
  rw [heralded_eq, heralded_eq, ← htext]
  rfl

/-- A comment's text is announced as it is written. -/
theorem announced_breakCommentEnds (h : Announced (fun text => p (breakCommentEnds text)) cs) :
    Announced p (breakCommentEnds cs) := by
  fun_induction breakCommentEnds cs with
  | case1 => exact .nil
  | case2 cs ih =>
    exact .cons (by rintro ⟨⟩) (.cons (by rintro ⟨⟩) (.cons (by rintro ⟨⟩) (ih h.tail.tail)))
  | case3 c cs hend ih =>
    refine .cons (fun hc => ?_) (ih h.tail)
    subst hc
    obtain ⟨d, hhead, hd⟩ | ⟨text, rest, htext, rfl⟩ := h.heralds
    · exact .inl ⟨d, (head?_breakCommentEnds cs).trans hhead, hd⟩
    · refine .inr ⟨breakCommentEnds text, _, ?_, breakCommentEnds_heralded text rest⟩
      rw [breakCommentEnds_cons (by rintro ⟨⟩), breakCommentEnds_heralded] at htext
      exact htext

end

/-! ## Visits -/

section
variable {p q : List Char → Prop} {base s : Emission}

theorem source_emit (s : Emission) (fragments : List String) :
    (s.emit fragments).source = s.source ++ String.join fragments := by
  rw [Emission.source, Emission.emit, Emission.source, Array.toList_append, String.join_append]

theorem toList_source_emit (s : Emission) (fragments : List String) :
    (s.emit fragments).source.toList = s.source.toList ++ (String.join fragments).toList := by
  rw [source_emit, String.toList_append]

/-- What the second emission has behind the source of the first is announced. -/
def Adds (p : List Char → Prop) (base s : Emission) : Prop :=
  ∃ added, s.source.toList = base.source.toList ++ added ∧ Announced p added

theorem Adds.refl (s : Emission) : Adds p s s :=
  ⟨[], (List.append_nil _).symm, .nil⟩

theorem Adds.trans {s' : Emission} (h : Adds p base s) (h' : Adds p s s') : Adds p base s' := by
  obtain ⟨added, hs, hadded⟩ := h
  obtain ⟨more, hs', hmore⟩ := h'
  exact ⟨added ++ more, by rw [hs', hs, List.append_assoc], hadded.append hmore⟩

/-- What is collected apart is announced as a whole. -/
theorem Adds.announced (h : Adds p base s) (hbase : base.source = "") :
    Announced p s.source.toList := by
  obtain ⟨added, hs, hadded⟩ := h
  rw [hs, hbase]
  exact hadded

theorem Adds.emit_joined {fragments : List String} (hs : Adds p base s)
    (h : Announced p (String.join fragments).toList) : Adds p base (s.emit fragments) :=
  hs.trans ⟨_, by rw [toList_source_emit], h⟩

theorem Adds.emit {fragments : List String} (hs : Adds p base s)
    (h : ∀ fragment ∈ fragments, Announced p fragment.toList) :
    Adds p base (s.emit fragments) := by
  refine hs.emit_joined ?_
  clear hs
  induction fragments with
  | nil => exact .nil
  | cons fragment fragments ih =>
    obtain ⟨hfirst, hrest⟩ := List.forall_mem_cons.1 h
    rw [String.join_cons, String.toList_append]
    exact hfirst.append (ih hrest)

theorem Adds.emit_unmarked {fragments : List String} (hs : Adds p base s)
    (h : ∀ fragment ∈ fragments, Unmarked fragment) : Adds p base (s.emit fragments) :=
  hs.emit fun fragment hfragment => announced_of_unmarked (h fragment hfragment)

/-- Whatever a visit adds is announced. -/
def Heralding (p : List Char → Prop) (base : Emission)
    (visited : Except GenerateFailure Emission) : Prop :=
  ∀ s, visited = .ok s → Adds p base s

theorem Heralding.ok (h : Adds p base s) : Heralding p base (.ok s) := by
  rintro _ ⟨⟩
  exact h

theorem exists_of_bind {s' : Emission} {visited : Except GenerateFailure Emission}
    {next : Emission → Except GenerateFailure Emission} (h : visited >>= next = .ok s') :
    ∃ s, visited = .ok s ∧ next s = .ok s' := by
  cases visited with
  | error failure => cases h
  | ok s => exact ⟨s, rfl, h⟩

/-- What a visit adds comes behind what was added before. -/
theorem Heralding.behind {visited : Except GenerateFailure Emission} (h : Heralding p s visited)
    (hs : Adds p base s) : Heralding p base visited :=
  fun s' hs' => hs.trans (h s' hs')

theorem Heralding.refuse {fault : GenerateFault} : Heralding p base (refuse s fault) := nofun

theorem Heralding.bind {base' : Emission} {visited : Except GenerateFailure Emission}
    {next : Emission → Except GenerateFailure Emission} (h : Heralding p base visited)
    (hnext : ∀ s, Adds p base s → Heralding q base' (next s)) :
    Heralding q base' (visited >>= next) := by
  intro s' hs'
  obtain ⟨s, hvisited, hs'⟩ := exists_of_bind hs'
  exact hnext s (h s hvisited) s' hs'

/-- The call of an output or a helper. -/
theorem announced_call {core : String} {c : Char} {args : List String}
    (hcore : core.toList.head? = some c) (hc : c ≠ 'D') (hunmarked : Unmarked core)
    (hargs : ∀ arg ∈ args, Unmarked arg) :
    Announced p (Marker.call (Marker.reserve core) args).toList := by
  rw [Marker.call, String.append_assoc, String.append_assoc, String.toList_append]
  refine (announced_reserve hcore hc hunmarked).append (announced_of_unmarked ?_)
  rw [unmarked_append, unmarked_append]
  exact ⟨by decide, unmarked_intercalate (by decide) hargs, by decide⟩

theorem announced_properties {attrs : List (Attribute String)} {spreads : List String}
    (hattrs : ∀ attr ∈ attrs, Unmarked attr.name ∧ Unmarked attr.value)
    (hspreads : ∀ spread ∈ spreads, Unmarked spread) :
    Announced p (propertiesOf attrs spreads []).1.toList := by
  unfold propertiesOf
  split
  · dsimp only
    split
    · exact announced_of_unmarked (by decide)
    · exact announced_of_unmarked (unmarked_objectLiteral hattrs)
  · refine announced_call (c := 'a') rfl (by decide) (by decide)
      (List.forall_mem_append.2 ⟨?_, hspreads⟩)
    unfold staticPart
    split
    · exact fun part hpart => absurd hpart List.not_mem_nil
    · exact List.forall_mem_singleton.2 (unmarked_objectLiteral hattrs)

theorem announced_elementArgs {name : String} {attrs : List (Attribute String)}
    {spreads : List String} (hname : Unmarked name)
    (hattrs : ∀ attr ∈ attrs, Unmarked attr.name ∧ Unmarked attr.value)
    (hspreads : ∀ spread ∈ spreads, Unmarked spread) :
    Announced p (elementArgs name attrs spreads) := by
  refine (announced_of_unmarked (unmarked_elementType hname)).append ?_
  exact .cons nofun (announced_properties hattrs hspreads)

/-! ### One step -/

/-- The call of an element and the opening of its block. -/
theorem source_emitElement (name : String) (attrs : List (Attribute String)) (spreads : List String)
    (s : Emission) : (emitElement name attrs spreads s).source.toList = s.source.toList ++
      Marker.opening ::
        ("DOM＿(".toList ++ (elementArgs name attrs spreads ++ ");\n\x7b\n".toList)) := by
  have hprops : (propertiesOf attrs spreads s.helpers).1 = (propertiesOf attrs spreads []).1 := by
    unfold propertiesOf
    split <;> rfl
  have hcall : (String.join [Marker.call Marker.element [elementType name,
      (propertiesOf attrs spreads []).1], ";\n\x7b\n"]).toList
      = Marker.opening :: ("DOM＿(".toList ++ (elementArgs name attrs spreads
        ++ ");\n\x7b\n".toList)) := by
    simp [Marker.call, Marker.element, Marker.reserve, Marker.closing, elementArgs]
  rw [emitElement, source_emit, hprops, String.toList_append, hcall]
  rfl

/-- An output call. -/
theorem announced_output (kind : SegmentKind) {source : String} (h : Unmarked source) :
    Announced p (Marker.call kind.marker [source]).toList := by
  have hargs : ∀ arg ∈ [source], Unmarked arg := List.forall_mem_singleton.2 h
  cases kind with
  | text => exact announced_call (c := 't') rfl (by decide) (by decide) hargs
  | raw => exact announced_call (c := 'u') rfl (by decide) (by decide) hargs

theorem heralding_text {value : String} (hs : Adds p base s) (h : Unmarked value) :
    Heralding p base (emitText value s) := by
  have hsegments := unmarked_segments h
  unfold emitText
  split
  case h_1 segments hvalue =>
    rw [hvalue] at hsegments
    refine .ok (hs.emit fun fragment hfragment => ?_)
    obtain ⟨segment, hsegment, rfl⟩ := List.mem_map.1 hfragment
    rw [String.toList_append]
    exact (announced_output segment.kind (hsegments segment hsegment)).append
      (announced_of_unmarked (by decide))
  case h_2 => exact .refuse

theorem Adds.code {value : String} {buffered escaped : Bool} (hs : Adds p base s)
    (h : Unmarked value) : Adds p base (emitCode value buffered escaped s) := by
  unfold emitCode
  split
  · have hcall : Announced p
        (Marker.call (if escaped then Marker.text else Marker.raw) [value]).toList := by
      cases escaped with
      | true => exact announced_output .text h
      | false => exact announced_output .raw h
    exact hs.emit (List.forall_mem_cons.2 ⟨hcall, List.forall_mem_singleton.2
      (announced_of_unmarked (by decide))⟩)
  · exact hs.emit_unmarked (List.forall_mem_cons.2 ⟨h, List.forall_mem_singleton.2 (by decide)⟩)

theorem unmarked_toString (depth : Int) : Unmarked (toString depth) := by
  have hdigits : ∀ n : Nat, Unmarked n.repr := by
    intro n hmem
    rw [Nat.toList_repr] at hmem
    exact absurd (Nat.isDigit_of_mem_toDigits (by decide) (by decide) hmem) (by decide)
  cases depth with
  | ofNat n => exact hdigits n
  | negSucc n => exact unmarked_append.2 ⟨by decide, hdigits (n + 1)⟩

theorem announced_temporary (depth : Int) : Announced p (Marker.temporary depth).toList := by
  refine announced_reserve (c := 't') ?_ (by decide)
    (unmarked_append.2 ⟨by decide, unmarked_toString depth⟩)
  rw [String.toList_append]
  rfl

theorem unmarked_of_initial {subject value : String} (h : Unmarked subject)
    (hvalue : Emission.initial? (some subject) = some value) : Unmarked value := by
  obtain ⟨hsome, -⟩ := Option.filter_eq_some_iff.1 hvalue
  cases hsome
  exact h

/-- In an assignment the name of the variable is the only reserved one. -/
theorem exists_of_mem_assignment {depth : Int} {subject fragment : String} (h : Unmarked subject)
    (hfragment : fragment ∈ Emission.assignment depth (some subject)) :
    ∃ rest, fragment = Marker.temporary depth ++ rest ∧ Unmarked rest := by
  obtain ⟨value, hvalue, rfl⟩ := List.mem_map.1 hfragment
  have hunmarked := unmarked_of_initial h (Option.mem_toList.1 hvalue)
  refine ⟨"=" ++ value ++ ";\n", by simp [String.append_assoc], ?_⟩
  simpa using ⟨⟨by decide, hunmarked⟩, by decide⟩

/-- In a declaration the name of the variable is the only reserved one. -/
theorem exists_declaration (depth : Int) {subject : String} (h : Unmarked subject) :
    ∃ rest, Emission.declaration depth (some subject)
      = "var " ++ (Marker.temporary depth ++ rest) ∧ Unmarked rest := by
  refine ⟨(Emission.initial? (some subject)).elim "" ("=" ++ ·) ++ ";\n",
    by simp [Emission.declaration, String.append_assoc], ?_⟩
  rw [unmarked_append]
  refine ⟨?_, by decide⟩
  cases hvalue : Emission.initial? (some subject) with
  | none => decide
  | some value => exact unmarked_append.2 ⟨by decide, unmarked_of_initial h hvalue⟩

theorem Adds.temporary {depth : Int} {subject : String} (hs : Adds p base s)
    (h : Unmarked subject) :
    Adds p base (s.temporary depth (some subject)).1 := by
  have hname : ∀ rest, Unmarked rest → Announced p (Marker.temporary depth ++ rest).toList := by
    intro rest hrest
    rw [String.toList_append]
    exact (announced_temporary depth).append (announced_of_unmarked hrest)
  rw [Emission.temporary_fst]
  split
  · refine hs.emit fun fragment hfragment => ?_
    obtain ⟨rest, rfl, hrest⟩ := exists_of_mem_assignment h hfragment
    exact hname rest hrest
  · obtain ⟨rest, hdeclaration, hrest⟩ := exists_declaration depth h
    have hdeclared : Announced p (Emission.declaration depth (some subject)).toList := by
      rw [hdeclaration, String.toList_append]
      exact (announced_of_unmarked (by decide)).append (hname rest hrest)
    exact hs.emit (List.forall_mem_singleton.2 hdeclared)

theorem Adds.label {label : String} (hs : Adds p base s) (h : Unmarked label) :
    Adds p base (emitLabel label s) := by
  refine hs.emit_unmarked (List.forall_mem_singleton.2 ?_)
  split
  · decide
  · simpa using ⟨⟨by decide, h⟩, by decide⟩

/-- The call of an iteration's helper. -/
theorem announced_iteration {collection params body tail : String}
    (hcollection : Unmarked collection)
    (hparams : Unmarked params) (hbody : Announced p body.toList)
    (htail : Announced p tail.toList) :
    Announced p (Marker.iterate ++ "(" ++ collection ++ ",function(" ++ params ++ ")\x7b\n" ++ body
      ++ "\x7d" ++ tail ++ ")").toList := by
  have hiterate : Announced p Marker.iterate.toList :=
    announced_reserve (c := 'm') rfl (by decide) (by decide)
  have hhead : Announced p ("(" ++ collection ++ ",function(" ++ params ++ ")\x7b\n").toList :=
    announced_of_unmarked
      (by simpa using ⟨⟨⟨⟨by decide, hcollection⟩, by decide⟩, hparams⟩, by decide⟩)
  have hclose : Announced p "\x7d".toList := announced_of_unmarked (by decide)
  have hlast : Announced p ")".toList := announced_of_unmarked (by decide)
  have hwhole := hiterate.append (hhead.append (hbody.append (hclose.append (htail.append hlast))))
  simpa using hwhole

/-! ### One node -/

section
variable {line : Int} {block alternative : Option (Block String)}

theorem tag_heralding {name : String} {attrs : List (Attribute String)} {spreads : List String}
    {code : Option (Code String)}
    (htexts : ∀ text ∈ (Node.tag line name attrs spreads block code).authored, Unmarked text)
    (hp : ∀ text, (Node.tag line name attrs spreads block code).Writes text → p text)
    (hcode : ∀ s, Heralding p s (emitInline code s))
    (hblock : ∀ s, Heralding p s (visitOptional block s)) :
    Heralding p s ((Node.tag line name attrs spreads block code).visit s) := by
  simp only [Node.authored, List.forall_mem_append, List.forall_mem_cons, List.forall_mem_map]
    at htexts
  obtain ⟨⟨⟨⟨⟨hname, hnames⟩, hvalues⟩, hspreads⟩, -⟩, -⟩ := htexts
  have hargs : Announced p (elementArgs name attrs spreads) :=
    announced_elementArgs hname (fun attr hattr => ⟨hnames attr hattr, hvalues attr hattr⟩) hspreads
  intro s' hvisit
  have hsteps := hvisit
  rw [Node.visit] at hsteps
  obtain ⟨inner, hinner, hsteps⟩ := exists_of_bind hsteps
  obtain ⟨last, hlast, hsteps⟩ := exists_of_bind hsteps
  cases hsteps
  obtain ⟨front, hfront, hfrontAnnounced⟩ := hcode _ inner hinner
  obtain ⟨back, hback, hbackAnnounced⟩ := hblock _ last hlast
  -- all that the visit adds, without its first letter, its name and the line end
  let text := elementArgs name attrs spreads ++ ");\n\x7b\n".toList ++ front ++ back ++ ['\x7d']
  have hsource : (last.emit ["\x7d\n"]).shallower.source.toList
      = s.source.toList ++ Marker.opening :: heralded text [] := by
    show (last.emit ["\x7d\n"]).source.toList = s.deeper.source.toList ++ _
    rw [toList_source_emit, hback, hfront, source_emitElement]
    simp [text, heralded_eq]
  have htext : Announced p text := by
    have hend : Announced p ");\n\x7b\n".toList := announced_of_not_mem (by decide)
    exact (((hargs.append hend).append hfrontAnnounced).append hbackAnnounced).append
      (announced_of_not_mem (by decide))
  exact ⟨_, hsource, announced_element (hp _ (.inl ⟨s, _, hvisit, hsource⟩)) htext⟩

theorem choice_heralding {subject : String} (hsubject : Unmarked subject)
    (hblock : ∀ s, Heralding p s (visitOptional block s)) :
    Heralding p s ((Node.choice line subject block).visit s) := by
  have hdeclared : Adds p s (s.deeper.temporary s.deeper.depth (some subject)).1 :=
    (Adds.refl s.deeper).temporary hsubject
  have hswitch : Announced p
      ("switch(" ++ (s.deeper.temporary s.deeper.depth (some subject)).2 ++ ")\x7b\n").toList := by
    rw [Emission.temporary_snd, String.toList_append, String.toList_append]
    exact ((announced_of_unmarked (by decide)).append (announced_temporary _)).append
      (announced_of_unmarked (by decide))
  have hopened := hdeclared.emit (List.forall_mem_singleton.2 hswitch)
  rw [Node.visit]
  cases block with
  | none => exact .refuse
  | some b =>
    refine ((hblock _).behind hopened).bind fun last hlast => .ok ?_
    exact hlast.emit_unmarked (List.forall_mem_singleton.2 (by decide))

theorem branch_heralding {label : String} (hlabel : Unmarked label)
    (hblock : ∀ s, Heralding p s (visitOptional block s)) :
    Heralding p s ((Node.branch line label block).visit s) := by
  have hlabeled : Adds p s (emitLabel label s.deeper) := (Adds.refl s.deeper).label hlabel
  rw [Node.visit]
  refine ((hblock _).behind hlabeled).bind fun last hlast => .ok ?_
  exact hlast.emit_unmarked (List.forall_mem_singleton.2 (by decide))

theorem each_heralding {collection value : String} {key : Option String}
    (hcollection : Unmarked collection) (hvalue : Unmarked value)
    (hkey : ∀ name ∈ key.toList, Unmarked name)
    (hblock : ∀ s, Heralding p s (visitOptional block s))
    (halternative : ∀ s, Heralding p s (visitOptional alternative s)) :
    Heralding p s ((Node.each line collection value key block alternative).visit s) := by
  have hparams : Unmarked (eachParams value key) := by
    cases key with
    | none => exact hvalue
    | some key =>
      exact unmarked_append.2 ⟨unmarked_append.2 ⟨hvalue, by decide⟩, hkey key List.mem_cons_self⟩
  rw [Node.visit]
  refine (hblock (enterBody (s.deeper.use .iterate))).bind fun inner hinner => ?_
  refine (halternative (enterBody _)).bind fun other hother => .ok ?_
  have htail : Announced p (if alternative.isSome then
      ",function()\x7b\n" ++ other.source ++ "\x7d" else "").toList := by
    split
    · rw [String.toList_append, String.toList_append]
      exact ((announced_of_unmarked (by decide)).append (hother.announced rfl)).append
        (announced_of_unmarked (by decide))
    · exact .nil
  refine Adds.emit (s := (leaveBody _ other).1) (.refl s) (List.forall_mem_cons.2 ⟨?_, ?_⟩)
  · exact announced_iteration hcollection hparams (hinner.announced rfl) htail
  · exact List.forall_mem_singleton.2 (announced_of_unmarked (by decide))

theorem comment_heralding {value : String} {buffered : Bool} (hvalue : Unmarked value) :
    Heralding p s ((Node.comment line value buffered).visit s) := by
  rw [Node.visit]
  refine .ok ?_
  split
  · refine (Adds.refl s).emit_unmarked (List.forall_mem_cons.2 ⟨by decide, ?_⟩)
    exact List.forall_mem_cons.2 ⟨hvalue, List.forall_mem_singleton.2 (by decide)⟩
  · exact .refl s

theorem blockComment_heralding {value : String} (hvalue : Unmarked value)
    (hblock : ∀ s, Heralding (fun text => p (breakCommentEnds text)) s (visitOptional block s)) :
    Heralding p s ((Node.blockComment line value block true).visit s) := by
  have hopened : Adds (fun text => p (breakCommentEnds text)) s.deeper.capture
      (s.deeper.capture.emit ["/*", value, "\n"]) := by
    refine (Adds.refl s.deeper.capture).emit_unmarked (List.forall_mem_cons.2 ⟨by decide, ?_⟩)
    exact List.forall_mem_cons.2 ⟨hvalue, List.forall_mem_singleton.2 (by decide)⟩
  rw [Node.visit, if_pos rfl]
  refine ((hblock _).behind hopened).bind fun inner hinner => .ok ?_
  refine Adds.emit (s := inner.release s.fragments) (.refl s) (List.forall_mem_cons.2 ⟨?_, ?_⟩)
  · rw [String.toList_ofList]
    exact announced_breakCommentEnds (hinner.announced rfl)
  · refine List.forall_mem_cons.2 ⟨announced_of_unmarked (by decide), ?_⟩
    exact List.forall_mem_singleton.2 (announced_of_unmarked (by decide))

theorem literal_heralding {value : String} (hvalue : Unmarked value) :
    Heralding p s ((Node.literal line value).visit s) := by
  rw [Node.visit]
  refine .ok ((Adds.refl s).emit_unmarked (List.forall_mem_cons.2 ⟨hvalue, ?_⟩))
  exact List.forall_mem_singleton.2 (by decide)

theorem slot_heralding : Heralding p s ((Node.slot line).visit s) := by
  have hargs : Unmarked "block ? block() : null" := by decide +kernel
  have hcall : Announced p (Marker.call Marker.text ["block ? block() : null"]).toList :=
    announced_output .text hargs
  rw [Node.visit]
  refine .ok (Adds.emit (s := s.deeper) (.refl s) (List.forall_mem_cons.2 ⟨hcall, ?_⟩))
  exact List.forall_mem_singleton.2 (announced_of_unmarked (by decide))

theorem code_heralding {value : String} {buffered escaped : Bool} (hvalue : Unmarked value)
    (hblock : ∀ s, Heralding p s (visitOptional block s)) :
    Heralding p s ((Code.mk line value buffered escaped block).emit s) := by
  have hcode : Adds p s (emitCode value buffered escaped s) := (Adds.refl s).code hvalue
  cases block with
  | none => exact .ok hcode
  | some b =>
    cases buffered with
    | true => exact (hblock _).behind hcode
    | false =>
      have hopened : Adds p s ((emitCode value false escaped s).emit ["\x7b\n"]) :=
        hcode.emit_unmarked (List.forall_mem_singleton.2 (by decide))
      refine ((hblock _).behind hopened).bind fun last hlast => .ok ?_
      exact hlast.emit_unmarked (List.forall_mem_singleton.2 (by decide))

end

end

/-! ### Whole trees -/

mutual

/-- The source of a node whose author writes no reserved name is announced. -/
theorem Node.visit_announced : ∀ (n : Node String) {p : List Char → Prop},
    (∀ text ∈ n.authored, Unmarked text) → (∀ text, n.Writes text → p text) →
    ∀ s, Heralding p s (n.visit s)
  | .block b, _, htexts, hp, s => b.visit_announced htexts hp s
  | .tag _ _ _ _ block code, _, htexts, hp, s => by
    obtain ⟨hfront, hcode⟩ := List.forall_mem_append.1 htexts
    have hblock := (List.forall_mem_append.1 hfront).2
    exact tag_heralding htexts hp
      (emitInline_announced code hcode fun text h => hp text (.inr (.inr h)))
      (visitOptional_announced block hblock fun text h => hp text (.inr (.inl h)))
  | .text _ value, _, htexts, _, s =>
    (heralding_text (.refl s.deeper) (htexts value List.mem_cons_self)).bind fun _ h => .ok h
  | .code c, _, htexts, hp, s => (c.emit_announced htexts hp s.deeper).bind fun _ h => .ok h
  | .choice _ _ block, _, htexts, hp, s => by
    obtain ⟨hsubject, hblock⟩ := List.forall_mem_cons.1 htexts
    exact choice_heralding hsubject (visitOptional_announced block hblock hp)
  | .branch _ _ block, _, htexts, hp, s => by
    obtain ⟨hlabel, hblock⟩ := List.forall_mem_cons.1 htexts
    exact branch_heralding hlabel (visitOptional_announced block hblock hp)
  | .each _ _ _ _ block alternative, _, htexts, hp, s => by
    obtain ⟨hfront, halternative⟩ := List.forall_mem_append.1 htexts
    obtain ⟨hhead, hblock⟩ := List.forall_mem_append.1 hfront
    obtain ⟨hcollection, hnames⟩ := List.forall_mem_cons.1 hhead
    obtain ⟨hvalue, hkey⟩ := List.forall_mem_cons.1 hnames
    exact each_heralding hcollection hvalue hkey
      (visitOptional_announced block hblock fun text h => hp text (.inl h))
      (visitOptional_announced alternative halternative fun text h => hp text (.inr h))
  | .slot _, _, _, _, s => slot_heralding
  | .comment _ value _, _, htexts, _, s => comment_heralding (htexts value List.mem_cons_self)
  | .blockComment _ _ _ false, _, _, _, s => .ok (.refl s)
  | .blockComment _ _ block true, _, htexts, hp, s => by
    obtain ⟨hvalue, hblock⟩ := List.forall_mem_cons.1 htexts
    exact blockComment_heralding hvalue
      (visitOptional_announced block hblock fun text h => hp _ ⟨rfl, text, h, rfl⟩)
  | .literal _ value, _, htexts, _, s => literal_heralding (htexts value List.mem_cons_self)
  | .doctype .., _, _, _, _ | .mixin .., _, _, _, _ | .filter .., _, _, _, _ => .refuse

theorem Block.visit_announced : ∀ (b : Block String) {p : List Char → Prop},
    (∀ text ∈ b.authored, Unmarked text) → (∀ text, b.Writes text → p text) →
    ∀ s, Heralding p s (b.visit s)
  | .mk _ nodes, _, htexts, hp, s =>
    (visitAll_announced nodes htexts hp s.deeper).bind fun _ h => .ok h

theorem visitOptional_announced : ∀ (block : Option (Block String)) {p : List Char → Prop},
    (∀ text ∈ authoredOptional block, Unmarked text) →
    (∀ text, writesOptional block text → p text) → ∀ s, Heralding p s (visitOptional block s)
  | none, _, _, _, s => .ok (.refl s)
  | some b, _, htexts, hp, s => b.visit_announced htexts hp s

theorem visitAll_announced : ∀ (nodes : List (Node String)) {p : List Char → Prop},
    (∀ text ∈ authoredAll nodes, Unmarked text) → (∀ text, writesAll nodes text → p text) →
    ∀ s, Heralding p s (visitAll nodes s)
  | [], _, _, _, s => .ok (.refl s)
  | n :: rest, _, htexts, hp, s => by
    obtain ⟨hfirst, hrest⟩ := List.forall_mem_append.1 htexts
    refine (n.visit_announced hfirst (fun text h => hp text (.inl h)) s).bind fun next hnext => ?_
    exact (visitAll_announced rest hrest (fun text h => hp text (.inr h)) next).behind hnext

theorem Code.emit_announced : ∀ (c : Code String) {p : List Char → Prop},
    (∀ text ∈ c.authored, Unmarked text) → (∀ text, c.Writes text → p text) →
    ∀ s, Heralding p s (c.emit s)
  | .mk _ _ _ _ block, _, htexts, hp, s => by
    obtain ⟨hvalue, hblock⟩ := List.forall_mem_cons.1 htexts
    exact code_heralding hvalue (visitOptional_announced block hblock hp)

theorem emitInline_announced : ∀ (code : Option (Code String)) {p : List Char → Prop},
    (∀ text ∈ authoredInline code, Unmarked text) → (∀ text, writesInline code text → p text) →
    ∀ s, Heralding p s (emitInline code s)
  | none, _, _, _, s => .ok (.refl s)
  | some c, _, htexts, hp, s => c.emit_announced htexts hp s

end

end Espalier.Template
