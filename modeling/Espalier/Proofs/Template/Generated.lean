import Espalier.Proofs.Template.Lines

/-!
# Generated source is read as intended

The source of a structural template is a program, and the program is the template's translation.
Each visit of the tree extends the source by lines that are spelled and read as the statements of
the node visited (`Writes`). Main statement: `parse_generate`.
-/

namespace Espalier.Template

open Espalier.Script Espalier.Text

/-! ## Plain text -/

theorem kind?_of_plain {mark : Char} {rest : List Char}
    (h : opensInterpolation (mark :: '\x7b' :: rest) = false) :
    Interpolation.kind? mark = none := by
  rw [opensInterpolation, Bool.or_eq_false_iff] at h
  have hmark := h.1
  simp only [List.head?_cons, beq_self_eq_true, Bool.and_true, Bool.or_eq_false_iff,
    beq_eq_false_iff_ne] at hmark
  unfold Interpolation.kind?
  split
  case h_1 => exact absurd rfl hmark.1
  case h_2 => exact absurd rfl hmark.2
  case h_3 => rfl

theorem opensInterpolation_tail {c : Char} {cs : List Char}
    (h : opensInterpolation (c :: cs) = false) : opensInterpolation cs = false := by
  rw [opensInterpolation, Bool.or_eq_false_iff] at h
  exact h.2

theorem lead_of_plain {c : Char} {cs : List Char} (h : opensInterpolation (c :: cs) = false) :
    Interpolation.lead (c :: cs) = .other c cs := by
  unfold Interpolation.lead
  split
  case h_1 heq => cases heq
  case h_2 mark rest heq =>
    cases heq
    rw [kind?_of_plain (opensInterpolation_tail h)]
    rfl
  case h_3 mark rest _ heq =>
    cases heq
    rw [kind?_of_plain h]
  case h_4 heq =>
    cases heq
    rfl

/-- Text that opens no interpolation is one literal run. -/
theorem segmentsFrom_of_plain {cs : List Char} (h : opensInterpolation cs = false) :
    ∀ (size : Nat) (pending : List Char) (position : Nat),
      Interpolation.segmentsFrom size pending position cs
        = (Interpolation.literal (cs.reverse ++ pending), none) := by
  induction cs with
  | nil =>
    intro size pending position
    rw [Interpolation.segmentsFrom]
    rfl
  | cons c cs ih =>
    intro size pending position
    have hlead := lead_of_plain h
    rw [Interpolation.segmentsFrom]
    split
    all_goals
      rename_i heq
      rw [hlead] at heq
      cases heq
    rw [ih (opensInterpolation_tail h)]
    simp

theorem interpolate_of_plain {value : String} (h : opensInterpolation value.toList = false) :
    interpolate value = (if value = "" then [] else [⟨.text, quote value⟩], none) := by
  rw [interpolate, segmentsFrom_of_plain h, List.append_nil, Interpolation.literal,
    List.reverse_reverse]
  by_cases hempty : value = ""
  · subst hempty
    rfl
  · have hne : value.toList ≠ [] := fun heq => hempty (String.toList_eq_nil_iff.1 heq)
    simp [hempty, hne, quote]

/-! ## Emissions -/

/-- An emission has grown by spelled lines. -/
structure Emits (s s' : Emission) (parts : List Lexeme) : Prop where
  source : s'.source.toList = s.source.toList ++ spelling parts
  spelled : Spelled parts

theorem Emits.nil (s : Emission) : Emits s s [] where
  source := (List.append_nil _).symm
  spelled := trivial

theorem Emits.trans {s s' s'' : Emission} {a b : List Lexeme} (h : Emits s s' a)
    (h' : Emits s' s'' b) : Emits s s'' (a ++ b) where
  source := by rw [h'.source, h.source, spelling_append, List.append_assoc]
  spelled := h.spelled.append h'.spelled

theorem Emits.emit (s : Emission) {fragments : List String} {parts : List Lexeme}
    (hparts : (String.join fragments).toList = spelling parts) (hspelled : Spelled parts) :
    Emits s (s.emit fragments) parts where
  source := by
    rw [← hparts, Emission.source, Emission.emit, Emission.source, Array.toList_append,
      String.join_append, String.toList_append]
  spelled := hspelled

/-- What a level holds, seen from outside. -/
theorem Emits.level {s s' : Emission} {parts : List Lexeme} (h : Emits s.deeper s' parts) :
    Emits s s'.shallower parts :=
  ⟨h.source, h.spelled⟩

theorem emits_call (s : Emission) {marker arg : String} {args : List Lexeme}
    (harg : arg.toList = spelling args) (hspelled : Spelled (callParts marker args)) :
    Emits s (s.emit [Marker.call marker [arg], ";\n"]) (callParts marker args) := by
  refine .emit s ?_ hspelled
  rw [spelling_callParts, ← harg]
  simp [Marker.call]

theorem emits_element (s : Emission) {name : String} (h : isHostName name = true) :
    Emits s (emitElement name [] [] s) (elementParts name) := by
  have htype : elementType name = quote name := if_pos h
  refine .emit { s with helpers := s.helpers } ?_ (spelled_elementParts name)
  rw [htype, elementParts, spelling_append, spelling_callParts]
  simp [Marker.call, spelling, Lexeme.chars, Mark.text]

theorem emits_closing (s : Emission) : Emits s (s.emit ["\x7d\n"]) closingParts :=
  .emit s rfl spelled_closingParts

theorem spelling_eachParams {value : String} {key : Option String} :
    (eachParams value key).toList = spelling (nameParts (value :: key.toList)) := by
  cases key <;> simp [eachParams, nameParts, moreNameParts, spelling, Lexeme.chars, Mark.text]

theorem emits_iteration (s : Emission) {collection value source tail : String}
    {key : Option String} {body : List Lexeme} {alternative : Option (List Lexeme)}
    (hsource : source.toList = spelling body)
    (htail : tail.toList = spelling (alternativeParts alternative))
    (hspelled : Spelled (callParts Marker.iterate
      (iterationArgs collection (value :: key.toList) body alternative))) :
    Emits s (s.emit [Marker.iterate ++ "(" ++ collection ++ ",function(" ++ eachParams value key
        ++ ")\x7b\n" ++ source ++ "\x7d" ++ tail ++ ")", ";\n"])
      (callParts Marker.iterate
        (iterationArgs collection (value :: key.toList) body alternative)) := by
  refine .emit s ?_ hspelled
  rw [spelling_callParts, iterationArgs, spelling_cons, spelling_cons, spelling_append,
    spelling_functionParts, ← spelling_eachParams, ← hsource, ← htail]
  simp [Lexeme.chars, Mark.text]

/-- The subject of a choice is set. -/
theorem emits_temporary (s : Emission) {subject : String} (h : isIdentifier subject = true)
    (hdepth : 0 ≤ s.depth) : ∃ s',
    s.temporary s.depth (some subject) = (s', Marker.temporary s.depth) ∧
      Emits s s' (subjectParts s.declared (Marker.temporary s.depth) subject) ∧
      s'.depth = s.depth ∧ s'.declared = declaring s.declared (Marker.temporary s.depth) := by
  have hword := isWord_of_isIdentifier h
  have hinitial : Emission.initial? (some subject) = some subject := by
    obtain ⟨c, cs, htext, -⟩ := hword.exists_cons
    have hne : subject ≠ "" := by
      rintro rfl
      cases htext
    simp [Emission.initial?, Option.filter, hne]
  have hspelled : Spelled (subjectParts s.declared (Marker.temporary s.depth) subject) :=
    spelled_subjectParts (isWord_temporary hdepth) hword
  by_cases hmem : Marker.temporary s.depth ∈ s.declared
  · have htemporary : s.temporary s.depth (some subject)
        = (s.emit [Marker.temporary s.depth ++ "=" ++ subject ++ ";\n"],
          Marker.temporary s.depth) := by
      simp only [Emission.temporary, if_pos hmem, hinitial]
    refine ⟨_, htemporary, .emit s ?_ hspelled, rfl, by rw [declaring, if_pos hmem]; rfl⟩
    rw [subjectParts, if_pos hmem]
    simp [spelling, Lexeme.chars, Mark.text, AssignOp.text]
  · have htemporary : s.temporary s.depth (some subject)
        = ({ s.emit ["var " ++ Marker.temporary s.depth ++ "=" ++ subject ++ ";\n"] with
          declared := s.declared ++ [Marker.temporary s.depth] }, Marker.temporary s.depth) := by
      simp only [Emission.temporary, if_neg hmem, hinitial]
    have hemits : Emits s (s.emit ["var " ++ Marker.temporary s.depth ++ "=" ++ subject ++ ";\n"])
        (subjectParts s.declared (Marker.temporary s.depth) subject) := by
      refine .emit s ?_ hspelled
      rw [subjectParts, if_neg hmem]
      simp [spelling, Lexeme.chars, Mark.text, AssignOp.text]
    exact ⟨_, htemporary, ⟨hemits.source, hspelled⟩, rfl, by rw [declaring, if_neg hmem]⟩

theorem emits_switch (s : Emission) {name : String} (h : IsWord name) :
    Emits s (s.emit ["switch(" ++ name ++ ")\x7b\n"]) (switchParts name) := by
  refine .emit s ?_ (spelled_switchParts h)
  simp [switchParts, spelling, Lexeme.chars, Mark.text]

theorem emits_label (s : Emission) {label : String}
    (h : label = "default" ∨ isIdentifier label = true) :
    Emits s (emitLabel label s) (labelParts label) := by
  refine .emit s ?_ (spelled_labelParts h)
  unfold labelParts
  split <;> simp [spelling, Lexeme.chars, Mark.text]

theorem emits_break (s : Emission) : Emits s (s.emit ["break;\n"]) breakParts :=
  .emit s rfl spelled_breakParts

/-! ## Visits -/

/-- A visit succeeds, and the source it appends is read as the statements of a translation. -/
def Writes (s : Emission) (visited : Except GenerateFailure Emission)
    (translation : List Stmt × List String) : Prop :=
  ∃ s' parts, visited = .ok s' ∧ Emits s s' parts ∧
    Reader.Reads (kinds parts) translation.1 ∧ s'.depth = s.depth ∧ s'.declared = translation.2

theorem Writes.nil (s : Emission) : Writes s (.ok s) ([], s.declared) :=
  ⟨s, [], rfl, .nil s, .nil, rfl, rfl⟩

theorem neg_one_le_deeper {s : Emission} (h : -1 ≤ s.depth) : -1 ≤ s.deeper.depth := by
  show -1 ≤ s.depth + 1
  omega

theorem depth_shallower {s s' : Emission} (h : s'.depth = s.deeper.depth) :
    s'.shallower.depth = s.depth := by
  show s'.depth - 1 = s.depth
  rw [h]
  exact Int.add_sub_cancel ..

theorem Writes.level {s : Emission} {visited : Except GenerateFailure Emission}
    {translation : List Stmt × List String} (h : Writes s.deeper visited translation) :
    Writes s (visited >>= fun s' => pure s'.shallower) translation := by
  obtain ⟨s', parts, rfl, hemits, hreads, hdepth, hdeclared⟩ := h
  exact ⟨s'.shallower, parts, rfl, hemits.level, hreads, depth_shallower hdepth, hdeclared⟩

/-- One visit after another. -/
theorem Writes.append {s s₁ : Emission} {first : List Stmt}
    {visited : Except GenerateFailure Emission} {translation : List Stmt × List String}
    (h₁ : Writes s (.ok s₁) (first, s₁.declared)) (h₂ : Writes s₁ visited translation) :
    Writes s visited (first ++ translation.1, translation.2) := by
  obtain ⟨_, parts₁, ⟨⟩, hemits₁, hreads₁, hdepth₁, -⟩ := h₁
  obtain ⟨s₂, parts₂, hvisited, hemits₂, hreads₂, hdepth₂, hdeclared₂⟩ := h₂
  refine ⟨s₂, parts₁ ++ parts₂, hvisited, hemits₁.trans hemits₂, ?_, hdepth₂.trans hdepth₁,
    hdeclared₂⟩
  rw [kinds_append]
  exact hreads₁.append hreads₂

/-- The body of a function is collected apart. -/
theorem Writes.body {s : Emission} {visited : Except GenerateFailure Emission}
    {translation : List Stmt × List String} (h : Writes (enterBody s) visited translation) :
    ∃ inner parts, visited = .ok inner ∧ inner.source.toList = spelling parts ∧ Spelled parts ∧
      Reader.Reads (kinds parts) translation.1 ∧ inner.depth = s.depth := by
  obtain ⟨inner, parts, hvisited, hemits, hreads, hdepth, -⟩ := h
  exact ⟨inner, parts, hvisited, hemits.source, hemits.spelled, hreads, hdepth⟩

/-- A branch list appends the clauses of its translation. -/
def WritesClauses (s : Emission) (visited : Except GenerateFailure Emission)
    (translation : List Clause × List String) : Prop :=
  ∃ s' parts, visited = .ok s' ∧ Emits s s' parts ∧
    Reader.ReadsClauses (kinds parts) translation.1 ∧ s'.depth = s.depth ∧
    s'.declared = translation.2

/-- The default branches are the clauses without a label. -/
theorem countP_translateBranches {nodes : List (Node String)}
    (h : structuralBranches nodes = true) : ∀ (depth : Int) (declared : List String),
    (translateBranches depth declared nodes).1.countP (·.isOtherwise) = nodes.countP isDefault := by
  induction nodes with
  | nil => intro depth declared; rfl
  | cons n rest ih =>
    intro depth declared
    cases n with
    | branch line label block =>
      simp only [structuralBranches, Bool.and_eq_true] at h
      have hclause : ∀ body, (branchClause label body).isOtherwise
          = isDefault (.branch line label block) := by
        intro body
        by_cases hlabel : label = "default" <;>
          simp [branchClause, isDefault, hlabel, Clause.isOtherwise]
      rw [translateBranches, List.countP_cons, List.countP_cons, ih h.2, hclause]
    | _ => cases h

/-- The output of one argument. -/
theorem writes_output (s : Emission) {core arg : String} {args : List Lexeme} {value : Expr}
    (harg : arg.toList = spelling args) (hspelled : Spelled (callParts (Marker.reserve core) args))
    (hvalue : Reader.ReadsArg (kinds args) value) :
    Writes s (.ok (s.emit [Marker.call (Marker.reserve core) [arg], ";\n"]))
      ([outputStmt (Marker.reserve core) value], s.declared) :=
  ⟨_, _, rfl, emits_call s harg hspelled, reads_output hvalue, rfl, rfl⟩

theorem emitText_writes (s : Emission) {value : String}
    (h : opensInterpolation value.toList = false) : Writes s (emitText value s)
      (if value = "" then [] else [outputStmt Marker.text (.string (quote value))],
        s.declared) := by
  rw [emitText, interpolate_of_plain h]
  by_cases hempty : value = ""
  · rw [if_pos hempty, if_pos hempty]
    exact ⟨_, [], rfl, .emit s rfl trivial, .nil, rfl, rfl⟩
  · rw [if_neg hempty, if_neg hempty]
    have hliteral : Reader.ReadsArg (kinds [.literal value]) (.string (quote value)) := .atom rfl
    refine ⟨_, callParts Marker.text [.literal value], rfl, .emit s ?_ ?_,
      reads_output hliteral, rfl, rfl⟩
    · rw [spelling_callParts]
      simp [Segment.outputCall, SegmentKind.marker, Marker.call, spelling, Lexeme.chars]
    · exact spelled_callParts_literal isWord_text value

theorem emitCode_writes (s : Emission) {value : String} (h : isIdentifier value = true)
    (escaped : Bool) : Writes s (.ok (emitCode value true escaped s))
      ([outputStmt (if escaped then Marker.text else Marker.raw) (.name value)], s.declared) := by
  have hword := isWord_of_isIdentifier h
  have harg : value.toList = spelling [.word value] := by simp [spelling, Lexeme.chars]
  have hvalue : Reader.ReadsArg (kinds [.word value]) (.name value) := by
    rw [kinds_word, wordToken_of_isIdentifier h]
    exact .atom rfl
  cases escaped with
  | true => exact writes_output s harg (spelled_callParts_word isWord_text hword) hvalue
  | false => exact writes_output s harg (spelled_callParts_word isWord_raw hword) hvalue

theorem emitSlot_writes (s : Emission) :
    Writes s (.ok (s.emit [Marker.call Marker.text ["block ? block() : null"], ";\n"]))
      ([outputStmt Marker.text (.cond (.name "block") (.call (.name "block") []) .null)],
        s.declared) := by
  have hblock : wordToken "block" = .name "block" := by decide
  have hvalue : Reader.ReadsArg (kinds slotParts)
      (.cond (.name "block") (.call (.name "block") []) .null) := by
    simp only [slotParts, kinds_word, kinds_mark, kinds_blank, kinds_nil, hblock, wordToken_null]
    exact .optionalCall "block"
  exact writes_output s rfl (spelled_callParts_slot isWord_text) hvalue

/-! ## The steps of a visit -/

/-- An element, when its inline code and its block are written. -/
theorem tag_writes {s : Emission} {line : Int} {name : String} {block : Option (Block String)}
    {code : Option (Code String)} (hname : isHostName name = true) (hdepth : -1 ≤ s.depth)
    (hcode : ∀ {s : Emission}, -1 ≤ s.depth →
      Writes s (emitInline code s) (translateInline s.depth s.declared code))
    (hblock : ∀ {s : Emission}, -1 ≤ s.depth →
      Writes s (visitOptional block s) (translateOptional s.depth s.declared block)) :
    Writes s (Node.visit (.tag line name [] [] block code) s)
      (Node.translate s.depth s.declared (.tag line name [] [] block code)) := by
  have hopen := emits_element s.deeper hname
  have hdeeper : -1 ≤ (emitElement name [] [] s.deeper).depth := neg_one_le_deeper hdepth
  obtain ⟨s₁, inline, hvisit₁, hemits₁, hreads₁, hdepth₁, hdeclared₁⟩ := hcode hdeeper
  obtain ⟨s₂, children, hvisit₂, hemits₂, hreads₂, hdepth₂, hdeclared₂⟩ :=
    hblock (hdepth₁ ▸ hdeeper)
  rw [hdepth₁, hdeclared₁] at hreads₂ hdeclared₂
  have hemits := ((hopen.trans (hemits₁.trans hemits₂)).trans (emits_closing s₂)).level
  have hreads := hreads₁.append hreads₂
  rw [← kinds_append] at hreads
  refine ⟨_, _, ?_, hemits, reads_element hreads, depth_shallower (hdepth₂.trans hdepth₁),
    hdeclared₂⟩
  rw [Node.visit]
  show (emitInline code (emitElement name [] [] s.deeper) >>= _) = _
  rw [hvisit₁]
  show (visitOptional block s₁ >>= _) = _
  rw [hvisit₂]
  rfl

/-- A choice, when its branches are written. -/
theorem choice_writes {s : Emission} {line start : Int} {subject : String}
    {nodes : List (Node String)} (hsubject : isIdentifier subject = true)
    (hbranches : structuralBranches nodes = true) (hdefault : nodes.countP isDefault ≤ 1)
    (hdepth : -1 ≤ s.depth)
    (hnodes : ∀ {s : Emission}, -1 ≤ s.depth →
      WritesClauses s (visitAll nodes s) (translateBranches s.depth s.declared nodes)) :
    Writes s (Node.visit (.choice line subject (some (.mk start nodes))) s)
      (Node.translate s.depth s.declared (.choice line subject (some (.mk start nodes)))) := by
  have hroot : 0 ≤ s.deeper.depth := by
    show 0 ≤ s.depth + 1
    omega
  obtain ⟨s₁, htemporary, hemits₁, hdepth₁, hdeclared₁⟩ := emits_temporary s.deeper hsubject hroot
  have hswitch := emits_switch s₁ (isWord_temporary hroot)
  let s₂ := s₁.emit ["switch(" ++ Marker.temporary s.deeper.depth ++ ")\x7b\n"]
  have hdepth₂ : s₂.deeper.depth = s.depth + 1 + 1 := congrArg (· + 1) hdepth₁
  have hdeclared₂ : s₂.deeper.declared
      = declaring s.declared (Marker.temporary (s.depth + 1)) := hdeclared₁
  have hdeeper : -1 ≤ s₂.deeper.depth := by omega
  obtain ⟨s₃, parts, hvisit, hemits₂, hclauses, hdepth₃, hdeclared₃⟩ := hnodes hdeeper
  rw [hdepth₂, hdeclared₂] at hclauses hdeclared₃
  have hset : Reader.Reads
      (kinds (subjectParts s.declared (Marker.temporary (s.depth + 1)) subject))
      [subjectStmt s.declared (Marker.temporary (s.depth + 1)) subject] := reads_subject hsubject
  rw [← countP_translateBranches hbranches (s.depth + 1 + 1)
    (declaring s.declared (Marker.temporary (s.depth + 1)))] at hdefault
  have hselect : Reader.Reads
      (kinds (switchParts (Marker.temporary (s.depth + 1)) ++ parts ++ closingParts))
      [.switch (.name (Marker.temporary (s.depth + 1))) _] := reads_switch hclauses hdefault
  have hemits := (hemits₁.trans ((hswitch.trans hemits₂.level).trans (emits_closing _))).level
  have hreads := hset.append hselect
  rw [← kinds_append] at hreads
  refine ⟨_, _, ?_, hemits, hreads, ?_, hdeclared₃⟩
  · rw [Node.visit, htemporary]
    show ((Block.visit _ s₂) >>= _) = _
    rw [Block.visit, hvisit]
    rfl
  · have hback : s₃.shallower.depth = s₂.depth := depth_shallower hdepth₃
    exact depth_shallower (hback.trans hdepth₁)

/-- An iteration, when its block and its alternative are written. -/
theorem each_writes {s : Emission} {line : Int} {collection value : String} {key : Option String}
    {block alternative : Option (Block String)} (hcollection : isIdentifier collection = true)
    (hnames : ∀ name ∈ value :: key.toList, isIdentifier name = true) (hdepth : -1 ≤ s.depth)
    (hblock : ∀ {s : Emission}, -1 ≤ s.depth →
      Writes s (visitOptional block s) (translateOptional s.depth s.declared block))
    (halternative : ∀ {s : Emission}, -1 ≤ s.depth →
      Writes s (visitOptional alternative s) (translateOptional s.depth s.declared alternative)) :
    Writes s (Node.visit (.each line collection value key block alternative) s)
      (Node.translate s.depth s.declared (.each line collection value key block alternative)) := by
  have hdeeper : -1 ≤ (enterBody (s.deeper.use .iterate)).depth := neg_one_le_deeper hdepth
  obtain ⟨inner, body, hvisit, hsource, hspelled, hreads, hdepth₁⟩ := (hblock hdeeper).body
  let s₁ := (leaveBody (s.deeper.use .iterate) inner).1
  have hlevel : (enterBody s₁).depth = s.depth + 1 := hdepth₁
  obtain ⟨inner', other, hvisit', hsource', hspelled', hreads', hdepth₂⟩ :=
    (@halternative (enterBody s₁) (hlevel ▸ hdeeper)).body
  rw [hlevel] at hreads'
  obtain ⟨found, htail, hspelled_found, hmore⟩ :=
    exists_alternativeParts hsource' hspelled' hreads'
  -- leaving both bodies restores the source and the variables of the level around them
  let s₂ := (leaveBody s₁ inner').1
  have hline := emits_iteration s₂ hsource htail
    (spelled_iteration hcollection hnames hspelled hspelled_found)
  have hemits : Emits s.deeper _ _ := ⟨hline.source, hline.spelled⟩
  refine ⟨_, _, ?_, hemits.level, reads_iteration hcollection hnames hreads hmore,
    depth_shallower (hdepth₂.trans hdepth₁), rfl⟩
  rw [Node.visit, hvisit]
  show (visitOptional alternative (enterBody s₁) >>= _) = _
  rw [hvisit']
  rfl

/-- A branch before others, when its block and the others are written. -/
theorem branch_writes {s : Emission} {line : Int} {label : String} {block : Option (Block String)}
    {rest : List (Node String)} (hlabel : label = "default" ∨ isIdentifier label = true)
    (hdepth : -1 ≤ s.depth)
    (hblock : ∀ {s : Emission}, -1 ≤ s.depth →
      Writes s (visitOptional block s) (translateOptional s.depth s.declared block))
    (hrest : ∀ {s : Emission}, -1 ≤ s.depth →
      WritesClauses s (visitAll rest s) (translateBranches s.depth s.declared rest)) :
    WritesClauses s (visitAll (.branch line label block :: rest) s)
      (translateBranches s.depth s.declared (.branch line label block :: rest)) := by
  have hopen := emits_label s.deeper hlabel
  have hdeeper : -1 ≤ (emitLabel label s.deeper).depth := neg_one_le_deeper hdepth
  obtain ⟨s₁, body, hvisit₁, hemits₁, hreads₁, hdepth₁, hdeclared₁⟩ := hblock hdeeper
  let s₂ := (s₁.emit ["break;\n"]).shallower
  have hbranch : Emits s s₂ _ := ((hopen.trans hemits₁).trans (emits_break s₁)).level
  have hdepth₂ : s₂.depth = s.depth := depth_shallower hdepth₁
  have hdeclared₂ : s₂.declared = (translateOptional (s.depth + 1) s.declared block).2 := hdeclared₁
  obtain ⟨s₃, others, hvisit₂, hemits₂, hreads₂, hdepth₃, hdeclared₃⟩ :=
    @hrest s₂ (hdepth₂ ▸ hdepth)
  rw [hdepth₂, hdeclared₂] at hreads₂ hdeclared₃
  refine ⟨s₃, _, ?_, hbranch.trans hemits₂, reads_branch hlabel hreads₁ hreads₂,
    hdepth₃.trans hdepth₂, hdeclared₃⟩
  rw [visitAll, Node.visit]
  show ((visitOptional block (emitLabel label s.deeper) >>= _) >>= _) = _
  rw [hvisit₁]
  exact hvisit₂

/-! ## All visits -/

mutual

/-- The visit of a structural node writes its translation. -/
theorem Node.visit_writes : ∀ (n : Node String) {s : Emission}, n.structural = true →
    -1 ≤ s.depth → Writes s (n.visit s) (n.translate s.depth s.declared)
  | .block b, s, h, hdepth => by
    rw [Node.visit, Node.translate]
    exact b.visit_writes h hdepth
  | .tag _ name attrs spreads block code, s, h, hdepth => by
    simp only [Node.structural, Bool.and_eq_true, List.isEmpty_iff] at h
    obtain ⟨⟨⟨⟨hname, rfl⟩, rfl⟩, hblock⟩, hcode⟩ := h
    exact tag_writes hname hdepth (emitInline_writes code hcode) (visitOptional_writes block hblock)
  | .text _ value, s, h, _ => by
    rw [Node.structural, Bool.not_eq_true'] at h
    exact (emitText_writes s.deeper h).level
  | .code c, s, h, hdepth => (c.emit_writes h (neg_one_le_deeper hdepth)).level
  | .choice _ subject none, s, h, hdepth => by
    rw [Node.structural, structuralChoice, Bool.and_false] at h
    cases h
  | .choice _ subject (some (.mk _ nodes)), s, h, hdepth => by
    simp only [Node.structural, structuralChoice, Bool.and_eq_true, decide_eq_true_eq] at h
    obtain ⟨hsubject, hbranches, hdefault⟩ := h
    exact choice_writes hsubject hbranches hdefault hdepth (visitBranches_writes nodes hbranches)
  | .each _ collection value key block alternative, s, h, hdepth => by
    simp only [Node.structural, Bool.and_eq_true] at h
    obtain ⟨⟨⟨⟨hcollection, hvalue⟩, hkey⟩, hblock⟩, halternative⟩ := h
    have hnames : ∀ name ∈ value :: key.toList, isIdentifier name = true := by
      rw [List.forall_mem_cons]
      refine ⟨hvalue, ?_⟩
      cases key with
      | none => exact nofun
      | some key => simpa using hkey
    exact each_writes hcollection hnames hdepth (visitOptional_writes block hblock)
      (visitOptional_writes alternative halternative)
  | .slot _, s, _, _ => (emitSlot_writes s.deeper).level

theorem Block.visit_writes : ∀ (b : Block String) {s : Emission}, b.structural = true →
    -1 ≤ s.depth → Writes s (b.visit s) (b.translate s.depth s.declared)
  | .mk _ nodes, _, h, hdepth => (visitAll_writes nodes h (neg_one_le_deeper hdepth)).level

theorem visitOptional_writes : ∀ (block : Option (Block String)) {s : Emission},
    structuralOptional block = true → -1 ≤ s.depth →
    Writes s (visitOptional block s) (translateOptional s.depth s.declared block)
  | none, s, _, _ => .nil s
  | some b, _, h, hdepth => b.visit_writes h hdepth

theorem visitAll_writes : ∀ (nodes : List (Node String)) {s : Emission},
    structuralAll nodes = true → -1 ≤ s.depth →
    Writes s (visitAll nodes s) (translateAll s.depth s.declared nodes)
  | [], s, _, _ => .nil s
  | n :: rest, s, h, hdepth => by
    rw [structuralAll, Bool.and_eq_true] at h
    obtain ⟨s₁, first, hvisit₁, hemits₁, hreads₁, hdepth₁, hdeclared₁⟩ := n.visit_writes h.1 hdepth
    obtain ⟨s₂, others, hvisit₂, hemits₂, hreads₂, hdepth₂, hdeclared₂⟩ :=
      visitAll_writes rest h.2 (hdepth₁ ▸ hdepth)
    rw [hdepth₁, hdeclared₁] at hreads₂ hdeclared₂
    refine ⟨s₂, first ++ others, ?_, hemits₁.trans hemits₂, ?_, hdepth₂.trans hdepth₁, hdeclared₂⟩
    · rw [visitAll, hvisit₁]
      exact hvisit₂
    · rw [kinds_append]
      exact hreads₁.append hreads₂

theorem Code.emit_writes : ∀ (c : Code String) {s : Emission}, c.structural = true →
    -1 ≤ s.depth → Writes s (c.emit s) (c.translate s.depth s.declared)
  | .mk line value buffered escaped block, s, h, hdepth => by
    simp only [Code.structural, Bool.and_eq_true] at h
    obtain ⟨⟨rfl, hvalue⟩, hblock⟩ := h
    have hcode := emitCode_writes s hvalue escaped
    have hinner : Writes (emitCode value true escaped s) _ _ :=
      visitOptional_writes block hblock hdepth
    have hemit : (Code.mk line value true escaped block).emit s
        = visitOptional block (emitCode value true escaped s) := by
      cases block <;> rfl
    rw [hemit]
    exact hcode.append hinner

theorem emitInline_writes : ∀ (code : Option (Code String)) {s : Emission},
    structuralInline code = true → -1 ≤ s.depth →
    Writes s (emitInline code s) (translateInline s.depth s.declared code)
  | none, s, _, _ => .nil s
  | some c, _, h, hdepth => c.emit_writes h hdepth

theorem visitBranches_writes : ∀ (nodes : List (Node String)) {s : Emission},
    structuralBranches nodes = true → -1 ≤ s.depth →
    WritesClauses s (visitAll nodes s) (translateBranches s.depth s.declared nodes)
  | [], s, _, _ => ⟨s, [], rfl, .nil s, .nil, rfl, rfl⟩
  | .branch _ label block :: rest, s, h, hdepth => by
    simp only [structuralBranches, Bool.and_eq_true, Bool.or_eq_true, beq_iff_eq] at h
    obtain ⟨⟨hlabel, hblock⟩, hrest⟩ := h
    exact branch_writes hlabel hdepth (visitOptional_writes block hblock)
      (visitBranches_writes rest hrest)

end

/-! ## The whole source -/

/-- A structural template is generated, and its source is the program of its translation. -/
theorem parse_generate {n : Node String} (h : n.structural = true) :
    ∃ found, n.generate = .ok found ∧ parse found.source = some (n.translate (-1) []).1 := by
  obtain ⟨s, parts, hvisit, hemits, hreads, -, -⟩ := @Node.visit_writes n {} h (Int.le_refl _)
  refine ⟨⟨s.source, s.fragments.size, s.helpers⟩, ?_, ?_⟩
  · rw [Node.generate, hvisit]
  · exact parse_spelling hemits.source hemits.spelled hreads

/-- A list of items, each with an apostrophe in its text and a choice of its own. -/
theorem parse_generate_list :
    ∃ found, Node.generate (.tag 1 "ul" [] [] (some (.mk 1 [.each 2 "items" "item" none
        (some (.mk 2 [.text 2 "it's", .choice 3 "kind" (some (.mk 3 [.branch 4 "default" none]))]))
        none])) none) = .ok found ∧
      parse found.source = some
        [elementStmt "ul", .block [.expr (.call (.name Marker.iterate) [.name "items",
          .func none ["item"] [outputStmt Marker.text (.string (quote "it's")),
            .vars [.init (Marker.temporary 4) (.name "kind")],
            .switch (.name (Marker.temporary 4)) [.otherwise [.break none]]]])]] :=
  parse_generate (by decide)

end Espalier.Template
