import Espalier.Proofs.Template.Stretches

/-!
# Temporary variables are declared where they are used

A choice keeps its subject in a variable that is named after its depth. The visit of a regular node
appends a stretch of the source (`Node.visit_reaches`), so each scope of the program declares the
temporary variables that it uses, each of them once. Main statement: `temporary_declared_once`.

A comment that is written out is no function: the choices in it declare their variables inside the
comment, and what follows takes them for declared (`parse_generate_comment`).
-/

namespace Espalier.Template

open Espalier.Script

/-! ## The steps of a visit -/

/-- A visit succeeds, and what it appends is a stretch of the source. -/
def Reaches (s : Emission) (visited : Except GenerateFailure Emission) : Prop :=
  ∃ s' text ss, visited = .ok s' ∧ s'.source.toList = s.source.toList ++ text ∧
    Stretch s.declared s'.declared text ss ∧ s'.depth = s.depth

/-- The visit of branches succeeds, and what it appends is clauses of a switch. -/
def ReachesClauses (s : Emission) (visited : Except GenerateFailure Emission)
    (defaults : Nat) : Prop :=
  ∃ s' text cs, visited = .ok s' ∧ s'.source.toList = s.source.toList ++ text ∧
    Stretches s.declared s'.declared text cs ∧ s'.depth = s.depth ∧
    cs.countP (·.isOtherwise) = defaults

theorem Reaches.ok (s : Emission) : Reaches s (.ok s) :=
  ⟨s, [], [], rfl, (List.append_nil _).symm, .nil _, rfl⟩

section
variable {s s₁ : Emission} {visited : Except GenerateFailure Emission}
  {next : Emission → Except GenerateFailure Emission}

theorem reaches_emit (s : Emission) {fragments : List String} {ss : List Stmt}
    (h : Stretch s.declared s.declared (String.join fragments).toList ss) :
    Reaches s (.ok (s.emit fragments)) :=
  ⟨s.emit fragments, _, ss, rfl, toList_source_emit s fragments, h, rfl⟩

theorem Reaches.level (h : Reaches s.deeper visited) :
    Reaches s (visited >>= fun s' => pure s'.shallower) := by
  obtain ⟨s', text, ss, rfl, hsource, hstretch, hdepth⟩ := h
  exact ⟨s'.shallower, text, ss, rfl, hsource, hstretch, depth_shallower hdepth⟩

/-- One visit after another. -/
theorem Reaches.append (h : Reaches s (.ok s₁)) (h' : Reaches s₁ visited) : Reaches s visited := by
  obtain ⟨_, a, ss, ⟨⟩, hsource, hstretch, hdepth⟩ := h
  obtain ⟨s₂, b, ss', hvisited, hsource', hstretch', hdepth'⟩ := h'
  refine ⟨s₂, a ++ b, ss ++ ss', hvisited, ?_, hstretch.append hstretch', hdepth'.trans hdepth⟩
  rw [hsource', hsource, List.append_assoc]

theorem Reaches.bind (h : Reaches s visited)
    (hnext : ∀ s', s'.depth = s.depth → Reaches s' (next s')) : Reaches s (visited >>= next) := by
  obtain ⟨s', text, ss, rfl, hsource, hstretch, hdepth⟩ := h
  have hfirst : Reaches s (.ok s') := ⟨s', text, ss, rfl, hsource, hstretch, hdepth⟩
  exact hfirst.append (hnext s' hdepth)

/-- What is visited behind an opening brace and before a closing one. -/
theorem Reaches.enclosed {front : List Char} (hsource : s₁.source.toList = s.source.toList ++ front)
    (hdeclared : s₁.declared = s.declared) (hdepth : s₁.depth = s.depth)
    (hfront : ∀ {declared' text ss}, Stretch s.declared declared' text ss →
      ∃ ss', Stretch s.declared declared' (front ++ text ++ "\x7d\n".toList) ss')
    (h : Reaches s₁ visited) : Reaches s (visited >>= fun s' => pure (s'.emit ["\x7d\n"])) := by
  obtain ⟨s', text, ss, rfl, hsource', hstretch, hdepth'⟩ := h
  rw [hdeclared] at hstretch
  obtain ⟨ss', hstretch'⟩ := hfront hstretch
  refine ⟨_, _, ss', rfl, ?_, hstretch', hdepth'.trans hdepth⟩
  rw [toList_source_emit, hsource', hsource, List.append_assoc, List.append_assoc,
    List.append_assoc]
  rfl

end

/-- The output of arguments. -/
theorem exists_stretch_output {core arg : String} (hword : IsWord (Marker.reserve core))
    (harg : isArguments arg.toList = true) (declared : List String) :
    ∃ ss, Stretch declared declared
      (Marker.call (Marker.reserve core) [arg] ++ ";\n").toList ss := by
  obtain ⟨es, hphrase, haloof⟩ := exists_call hword harg
  have htext : (Marker.call (Marker.reserve core) [arg] ++ ";\n").toList
      = callLine (Marker.reserve core).toList arg.toList := by
    simp [Marker.call, callLine]
  rw [htext]
  exact ⟨_, stretch_of_isAloof hphrase haloof declared⟩

theorem output_reaches (s : Emission) {core arg : String} (hword : IsWord (Marker.reserve core))
    (harg : isArguments arg.toList = true) :
    Reaches s (.ok (s.emit [Marker.call (Marker.reserve core) [arg], ";\n"])) := by
  obtain ⟨ss, hstretch⟩ := exists_stretch_output hword harg s.declared
  have hjoin : String.join [Marker.call (Marker.reserve core) [arg], ";\n"]
      = Marker.call (Marker.reserve core) [arg] ++ ";\n" := by
    rw [String.join_cons, String.join_cons, String.join_nil, String.append_empty]
  rw [← hjoin] at hstretch
  exact reaches_emit s hstretch

theorem exists_stretch_segments {segments : List Segment}
    (h : segments.all (isArguments ·.source.toList) = true) (declared : List String) :
    ∃ ss, Stretch declared declared
      (String.join (segments.map fun segment => segment.outputCall ++ ";\n")).toList ss := by
  induction segments with
  | nil => exact ⟨[], .nil declared⟩
  | cons segment segments ih =>
    obtain ⟨hfirst, hrest⟩ := Bool.and_eq_true_iff.1 h
    obtain ⟨ss, hss⟩ : ∃ ss, Stretch declared declared (segment.outputCall ++ ";\n").toList ss := by
      obtain ⟨kind, source⟩ := segment
      cases kind with
      | text => exact exists_stretch_output isWord_text hfirst declared
      | raw => exact exists_stretch_output isWord_raw hfirst declared
    obtain ⟨ss', hss'⟩ := ih hrest
    rw [List.map_cons, String.join_cons, String.toList_append]
    exact ⟨ss ++ ss', hss.append hss'⟩

theorem text_reaches (s : Emission) {line : Int} {value : String}
    (h : (Node.text line value).isRegular = true) : Reaches s (emitText value s) := by
  rw [Node.isRegular, Bool.and_eq_true, Option.isNone_iff_eq_none] at h
  obtain ⟨hnone, hsegments⟩ := h
  obtain ⟨ss, hss⟩ := exists_stretch_segments hsegments s.declared
  unfold emitText
  split
  case h_1 segments heq =>
    rw [heq] at hss
    exact reaches_emit s hss
  case h_2 fault heq =>
    rw [heq] at hnone
    cases hnone

/-- An element, when its inline code and its block are visited. -/
theorem tag_reaches {s : Emission} {line : Int} {name : String} {attrs : List (Attribute String)}
    {spreads : List String} {block : Option (Block String)} {code : Option (Code String)}
    (hargs : isArguments (elementArgs name attrs spreads) = true) (hdepth : -1 ≤ s.depth)
    (hcode : ∀ {s : Emission}, -1 ≤ s.depth → Reaches s (emitInline code s))
    (hblock : ∀ {s : Emission}, -1 ≤ s.depth → Reaches s (visitOptional block s)) :
    Reaches s (Node.visit (.tag line name attrs spreads block code) s) := by
  obtain ⟨es, hphrase, haloof⟩ := exists_call isWord_element hargs
  let opened := emitElement name attrs spreads s.deeper
  have hdeeper : -1 ≤ opened.depth := neg_one_le_deeper hdepth
  have hinner : Reaches opened (emitInline code opened >>= visitOptional block) :=
    (hcode hdeeper).bind fun s' hs' => hblock (hs' ▸ hdeeper)
  have hopened : opened.source.toList = s.deeper.source.toList
      ++ (callLine Marker.element.toList (elementArgs name attrs spreads) ++ "\x7b\n".toList) := by
    rw [source_emitElement]
    simp [callLine, Marker.element, Marker.reserve, Marker.closing]
  have hvisit : Node.visit (.tag line name attrs spreads block code) s
      = ((emitInline code opened >>= visitOptional block) >>= fun s' => pure (s'.emit ["\x7d\n"]))
        >>= fun s' => pure s'.shallower := by
    rw [Node.visit, bind_assoc, bind_assoc]
    rfl
  rw [hvisit]
  refine (hinner.enclosed hopened rfl rfl fun {declared' text ss} hstretch => ?_).level
  have hall := (stretch_of_isAloof hphrase haloof s.declared).append hstretch.block
  rw [← List.append_assoc, ← List.append_assoc] at hall
  exact ⟨_, hall⟩

/-- Embedded code, when its block is visited. -/
theorem code_reaches {s : Emission} {line : Int} {value : String} {buffered escaped : Bool}
    {block : Option (Block String)}
    (h : (if buffered then isArguments value.toList
      else if block.isSome then isHead value.toList else isStatements value.toList) = true)
    (hdepth : -1 ≤ s.depth)
    (hblock : ∀ {s : Emission}, -1 ≤ s.depth → Reaches s (visitOptional block s)) :
    Reaches s ((Code.mk line value buffered escaped block).emit s) := by
  cases buffered with
  | true =>
    have houtput : Reaches s (.ok (emitCode value true escaped s)) := by
      cases escaped with
      | true => exact output_reaches s isWord_text h
      | false => exact output_reaches s isWord_raw h
    have hemit : (Code.mk line value true escaped block).emit s
        = visitOptional block (emitCode value true escaped s) := by
      cases block <;> rfl
    rw [hemit]
    exact houtput.append (hblock hdepth)
  | false =>
    have hline : (String.join [value, "\n"]).toList = value.toList ++ ['\n'] := by simp
    cases block with
    | none =>
      obtain ⟨ss, hphrase, haloof⟩ := exists_statements h
      rw [← hline] at hphrase
      exact reaches_emit s (stretch_of_isAloof hphrase haloof s.declared)
    | some b =>
      obtain ⟨head, hhangs, hpassage, hown⟩ := exists_head h
      let opened := (emitCode value false escaped s).emit ["\x7b\n"]
      have hopened : opened.source.toList
          = s.source.toList ++ (value.toList ++ ['\n'] ++ "\x7b\n".toList) := by
        rw [toList_source_emit, emitCode, if_neg Bool.false_ne_true, toList_source_emit, hline,
          List.append_assoc]
        rfl
      refine Reaches.enclosed hopened rfl rfl (fun {declared' text ss} hstretch => ?_)
        (hblock hdepth)
      have hall := hstretch.hang hhangs hpassage hown
      rw [← List.append_assoc, ← List.append_assoc] at hall
      exact ⟨_, hall⟩

/-- A line comment stands for nothing. -/
theorem comment_reaches (s : Emission) {line : Int} {value : String} {buffered : Bool}
    (h : (!buffered || isRemark value) = true) :
    Reaches s ((Node.comment line value buffered).visit s) := by
  cases buffered with
  | false => exact .ok s
  | true =>
    have hline : (String.join ["//", value, "\n"]).toList
        = '/' :: '/' :: (value.toList ++ ['\n']) := by simp
    have hphrase := (passage_lineComment h).phrase
    rw [← hline] at hphrase
    exact reaches_emit s ⟨hphrase, .nil s.declared⟩

/-- The visit of a body with its own variables. -/
theorem Reaches.body {s : Emission} {visited : Except GenerateFailure Emission}
    (h : Reaches (enterBody s) visited) : ∃ inner ss, visited = .ok inner ∧
      Stretch [] inner.declared inner.source.toList ss ∧ inner.depth = s.depth := by
  obtain ⟨inner, text, ss, hvisited, hsource, hstretch, hdepth⟩ := h
  obtain rfl : inner.source.toList = text := hsource
  exact ⟨inner, ss, hvisited, hstretch, hdepth⟩

/-- The end of an iteration, with what was visited for an empty collection. -/
theorem exists_ending {declared : List String} {source : String} {ss : List Stmt}
    (h : Stretch [] declared source.toList ss) (alternative : Option (Block String)) :
    ∃ others, Ending ((if alternative.isSome then ",function()\x7b\n" ++ source ++ "\x7d"
      else "").toList ++ ");\n".toList) others := by
  cases alternative with
  | none => exact ⟨[], ending_nil⟩
  | some b =>
    have htext : (",function()\x7b\n" ++ source ++ "\x7d").toList
        = ",function()\x7b\n".toList ++ source.toList ++ "\x7d".toList := by simp
    rw [Option.isSome_some, if_pos rfl, htext]
    exact ⟨_, h.ending⟩

/-- An iteration, when its block and its alternative are visited. -/
theorem each_reaches {s : Emission} {line : Int} {collection value : String} {key : Option String}
    {block alternative : Option (Block String)}
    (h : isIteration collection.toList (eachParams value key).toList = true) (hdepth : -1 ≤ s.depth)
    (hblock : ∀ {s : Emission}, -1 ≤ s.depth → Reaches s (visitOptional block s))
    (halternative : ∀ {s : Emission}, -1 ≤ s.depth → Reaches s (visitOptional alternative s)) :
    Reaches s (Node.visit (.each line collection value key block alternative) s) := by
  obtain ⟨e, names, hfront, hown⟩ : ∃ e names, Passage (eachLine Marker.iterate.toList
      collection.toList (eachParams value key).toList) (.name Marker.iterate :: eachKinds e names) ∧
      Own [.expr (.call (.name "f") [e, .func none names []])] := exists_iteration h isWord_iterate
  have hdeeper : -1 ≤ (enterBody (s.deeper.use .iterate)).depth := neg_one_le_deeper hdepth
  obtain ⟨inner, ss, hvisit, hstretch, hdepth₁⟩ := (hblock hdeeper).body
  let s₁ := (leaveBody (s.deeper.use .iterate) inner).1
  have hlevel : (enterBody s₁).depth = s.depth + 1 := hdepth₁
  obtain ⟨inner', ss', hvisit', hstretch', hdepth₂⟩ :=
    (@halternative (enterBody s₁) (hlevel ▸ hdeeper)).body
  let tail := if alternative.isSome then ",function()\x7b\n" ++ inner'.source ++ "\x7d" else ""
  obtain ⟨others, hothers⟩ : ∃ others, Ending (tail.toList ++ ");\n".toList) others :=
    exists_ending hstretch' alternative
  let source := Marker.iterate ++ "(" ++ collection ++ ",function(" ++ eachParams value key
    ++ ")\x7b\n" ++ inner.source ++ "\x7d" ++ tail ++ ")"
  have hline : (String.join [source, ";\n"]).toList
      = eachLine Marker.iterate.toList collection.toList (eachParams value key).toList
        ++ inner.source.toList ++ '\x7d' :: (tail.toList ++ ");\n".toList) := by
    simp [source, eachLine]
  have hiteration :=
    hstretch.iteration hfront hown (isName_reserve isWord_iterate) hothers s.declared
  rw [← hline] at hiteration
  -- leaving both bodies restores the source and the variables of the level around them
  let s₂ := (leaveBody s₁ inner').1
  refine ⟨(s₂.emit [source, ";\n"]).shallower, _, _, ?_, toList_source_emit s₂ _, hiteration,
    depth_shallower (hdepth₂.trans hdepth₁)⟩
  rw [Node.visit, hvisit]
  show (visitOptional alternative (enterBody s₁) >>= _) = _
  rw [hvisit']
  rfl

/-- The variable of a choice is set. -/
theorem exists_temporary (s : Emission) {subject : String} (h : subject ≠ "") : ∃ s',
    s.temporary s.depth (some subject) = (s', Marker.temporary s.depth) ∧
      s'.source.toList
        = s.source.toList ++ subjectLine s.declared (Marker.temporary s.depth) subject ∧
      s'.depth = s.depth ∧ s'.declared = declaring s.declared (Marker.temporary s.depth) := by
  have hinitial : Emission.initial? (some subject) = some subject := by
    simp [Emission.initial?, Option.filter, h]
  rw [Emission.temporary, subjectLine, declaring]
  simp only [hinitial]
  split
  case isTrue =>
    refine ⟨_, rfl, ?_, rfl, rfl⟩
    rw [toList_source_emit]
    simp [assignLine]
  case isFalse =>
    refine ⟨_, rfl, ?_, rfl, rfl⟩
    show (s.emit _).source.toList = _
    rw [toList_source_emit]
    simp [assignLine]

theorem ne_empty_of_isSubject {subject : String} (h : isSubject subject.toList = true) :
    subject ≠ "" := by
  rintro rfl
  have hempty : isSubject "".toList = false := by decide +kernel
  rw [hempty] at h
  cases h

/-- A choice, when its branches are visited. -/
theorem choice_reaches {s : Emission} {line start : Int} {subject : String}
    {nodes : List (Node String)} (hsubject : isSubject subject.toList = true)
    (hdefault : nodes.countP isDefault ≤ 1) (hdepth : -1 ≤ s.depth)
    (hnodes : ∀ {s : Emission}, -1 ≤ s.depth →
      ReachesClauses s (visitAll nodes s) (nodes.countP isDefault)) :
    Reaches s (Node.visit (.choice line subject (some (.mk start nodes))) s) := by
  have hroot : 0 ≤ s.deeper.depth := by
    show 0 ≤ s.depth + 1
    omega
  have hword := isWord_temporary hroot
  obtain ⟨s₁, htemporary, hsource₁, hdepth₁, hdeclared₁⟩ :=
    exists_temporary s.deeper (ne_empty_of_isSubject hsubject)
  let name := Marker.temporary s.deeper.depth
  let s₂ := s₁.emit ["switch(" ++ name ++ ")\x7b\n"]
  have hdeeper : -1 ≤ s₂.deeper.depth := by
    show -1 ≤ s₁.depth + 1
    rw [hdepth₁]
    omega
  obtain ⟨s₃, text, cs, hvisit, hsource₃, hclauses, hdepth₃, hcount⟩ := hnodes hdeeper
  rw [← hcount] at hdefault
  have hdeclared₂ : s₂.deeper.declared = declaring s.declared name := hdeclared₁
  rw [hdeclared₂] at hclauses
  obtain ⟨ss, hset⟩ : ∃ ss, Stretch s.declared (declaring s.declared name)
    (subjectLine s.declared name subject) ss := exists_stretch_subject hsubject hword s.declared
  have hswitch : Stretch (declaring s.declared name) s₃.declared
      ("switch(".toList ++ name.toList ++ ")\x7b\n".toList ++ text ++ "\x7d\n".toList)
      [.switch (.name name) cs] := hclauses.switch hword (mem_declaring _ _) hdefault
  refine ⟨(s₃.shallower.emit ["\x7d\n"]).shallower, _, _, ?_, ?_, hset.append hswitch, ?_⟩
  · rw [Node.visit, htemporary]
    show ((Block.visit _ s₂) >>= _) = _
    rw [Block.visit, hvisit]
    rfl
  · show (s₃.emit ["\x7d\n"]).source.toList = _
    have hset : s₁.source.toList = s.source.toList ++ subjectLine s.declared name subject :=
      hsource₁
    have hopened : s₂.deeper.source.toList
        = s₁.source.toList ++ ("switch(" ++ name ++ ")\x7b\n").toList := by
      show s₂.source.toList = _
      rw [toList_source_emit, String.join_cons, String.join_nil, String.append_empty]
    rw [toList_source_emit, hsource₃, hopened, hset]
    simp
  · have hback : s₃.shallower.depth = s₂.depth := depth_shallower hdepth₃
    exact depth_shallower (hback.trans hdepth₁)

/-- A branch before others, when its block and the others are visited. -/
theorem branch_reaches {s : Emission} {line : Int} {label : String} {block : Option (Block String)}
    {rest : List (Node String)} {defaults : Nat}
    (hlabel : label = "default" ∨ isLabel label.toList = true) (hdepth : -1 ≤ s.depth)
    (hblock : ∀ {s : Emission}, -1 ≤ s.depth → Reaches s (visitOptional block s))
    (hrest : ∀ {s : Emission}, -1 ≤ s.depth → ReachesClauses s (visitAll rest s) defaults) :
    ReachesClauses s (visitAll (.branch line label block :: rest) s)
      (defaults + if isDefault (.branch line label block) then 1 else 0) := by
  have hbreak : ∀ declared, Stretch declared declared "break;\n".toList [.break none] :=
    fun declared =>
      ⟨.single (passage_of_isLine (by decide +kernel)) nofun rfl rfl, .single (.nil declared)⟩
  have hdeeper : -1 ≤ (emitLabel label s.deeper).depth := neg_one_le_deeper hdepth
  obtain ⟨s₁, text, ss, hvisit₁, hsource₁, hbody, hdepth₁⟩ := hblock hdeeper
  let s₂ := (s₁.emit ["break;\n"]).shallower
  have hdepth₂ : s₂.depth = s.depth := depth_shallower hdepth₁
  obtain ⟨s₃, others, cs, hvisit₂, hsource₂, hclauses, hdepth₃, hcount⟩ :=
    @hrest s₂ (hdepth₂ ▸ hdepth)
  have hend := hbody.append (hbreak s₁.declared)
  have hsource : s₃.source.toList = s.source.toList ++
      ((if label = "default" then "default:\n" else "case " ++ label ++ ":\n").toList
        ++ (text ++ "break;\n".toList) ++ others) := by
    have hopened : (emitLabel label s.deeper).source.toList = s.source.toList
        ++ (if label = "default" then "default:\n" else "case " ++ label ++ ":\n").toList := by
      rw [emitLabel, toList_source_emit, String.join_cons, String.join_nil, String.append_empty]
      rfl
    have hback : s₂.source.toList = s₁.source.toList ++ "break;\n".toList := toList_source_emit _ _
    rw [hsource₂, hback, hsource₁, hopened]
    simp
  have hvisit : visitAll (.branch line label block :: rest) s = .ok s₃ := by
    rw [visitAll, Node.visit]
    show ((visitOptional block (emitLabel label s.deeper) >>= _) >>= _) = _
    rw [hvisit₁]
    exact hvisit₂
  have hisDefault : isDefault (.branch line label block) = (label == "default") := rfl
  rw [hisDefault]
  by_cases hdefault : label = "default"
  · rw [if_pos hdefault] at hsource
    rw [if_pos (beq_iff_eq.2 hdefault)]
    exact ⟨s₃, _, _, hvisit, hsource, hend.otherwise hclauses, hdepth₃.trans hdepth₂, by
      rw [List.countP_cons_of_pos rfl, hcount]⟩
  · rw [if_neg hdefault] at hsource
    rw [if_neg (mt beq_iff_eq.1 hdefault)]
    obtain ⟨e, hon⟩ := exists_stretches_on (hlabel.resolve_left hdefault) hend hclauses
    refine ⟨s₃, _, _, hvisit, ?_, hon, hdepth₃.trans hdepth₂, ?_⟩
    · rw [hsource]
      simp [caseLine_eq]
    · exact (List.countP_cons_of_neg Bool.false_ne_true).trans hcount

/-- A comment before branches. -/
theorem remark_reaches {s : Emission} {line : Int} {value : String} {buffered : Bool}
    {rest : List (Node String)} {defaults : Nat} (h : (!buffered || isRemark value) = true)
    (hrest : ∀ {t : Emission}, t.depth = s.depth → ReachesClauses t (visitAll rest t) defaults) :
    ReachesClauses s (visitAll (.comment line value buffered :: rest) s) defaults := by
  cases buffered with
  | false => exact hrest rfl
  | true =>
    have hline : (String.join ["//", value, "\n"]).toList
        = '/' :: '/' :: (value.toList ++ ['\n']) := by simp
    obtain ⟨s', text, cs, hvisit, hsource, hclauses, hdepth, hcount⟩ :=
      @hrest (s.emit ["//", value, "\n"]) rfl
    refine ⟨s', _, cs, hvisit, ?_, hclauses.skip (passage_lineComment h), hdepth, hcount⟩
    rw [hsource, toList_source_emit, hline, List.append_assoc]

/-! ## Comments around a block -/

mutual

/-- No variable is declared by the visit of a node without choices. -/
theorem Node.visit_quiet : ∀ (n : Node String) {s s' : Emission}, n.isQuiet = true →
    n.visit s = .ok s' → s'.declared = s.declared
  | .block b, _, _, h, hvisit => b.visit_quiet h hvisit
  | .tag _ _ _ _ block code, _, _, h, hvisit => by
    obtain ⟨hcode, hblock⟩ := Bool.and_eq_true_iff.1 h
    rw [Node.visit] at hvisit
    obtain ⟨s₁, hvisit₁, hvisit⟩ := exists_of_bind hvisit
    obtain ⟨s₂, hvisit₂, hvisit⟩ := exists_of_bind hvisit
    cases hvisit
    have hinline := emitInline_quiet code hcode hvisit₁
    exact (visitOptional_quiet block hblock hvisit₂).trans hinline
  | .text _ value, s, _, _, hvisit => by
    rw [Node.visit] at hvisit
    obtain ⟨s₁, hvisit₁, hvisit⟩ := exists_of_bind hvisit
    cases hvisit
    unfold emitText at hvisit₁
    split at hvisit₁
    case h_1 =>
      cases hvisit₁
      rfl
    case h_2 => cases hvisit₁
  | .code c, _, _, h, hvisit => by
    rw [Node.visit] at hvisit
    obtain ⟨s₁, hvisit₁, hvisit⟩ := exists_of_bind hvisit
    cases hvisit
    have hcode := c.emit_quiet h hvisit₁
    exact hcode
  | .branch _ label block, _, _, h, hvisit => by
    rw [Node.visit] at hvisit
    obtain ⟨s₁, hvisit₁, hvisit⟩ := exists_of_bind hvisit
    cases hvisit
    have hblock := visitOptional_quiet block h hvisit₁
    exact hblock
  | .each _ collection value key block alternative, _, _, _, hvisit => by
    rw [Node.visit] at hvisit
    obtain ⟨s₁, -, hvisit⟩ := exists_of_bind hvisit
    obtain ⟨s₂, -, hvisit⟩ := exists_of_bind hvisit
    cases hvisit
    rfl
  | .slot _, _, _, _, hvisit | .literal _ _, _, _, _, hvisit => by
    cases hvisit
    rfl
  | .comment _ _ buffered, _, _, _, hvisit => by
    cases buffered <;> cases hvisit <;> rfl
  | .blockComment _ value block buffered, _, _, h, hvisit => by
    cases buffered with
    | false =>
      cases hvisit
      rfl
    | true =>
      rw [Node.visit, if_pos rfl] at hvisit
      obtain ⟨s₁, hvisit₁, hvisit⟩ := exists_of_bind hvisit
      cases hvisit
      have hblock := visitOptional_quiet block h hvisit₁
      exact hblock
  | .doctype _ _, _, _, _, hvisit | .mixin _ _ _ _ _, _, _, _, hvisit
  | .filter _ _ _, _, _, _, hvisit => by cases hvisit

theorem Block.visit_quiet : ∀ (b : Block String) {s s' : Emission}, b.isQuiet = true →
    b.visit s = .ok s' → s'.declared = s.declared
  | .mk _ nodes, _, _, h, hvisit => by
    rw [Block.visit] at hvisit
    obtain ⟨s₁, hvisit₁, hvisit⟩ := exists_of_bind hvisit
    cases hvisit
    have hnodes := visitAll_quiet nodes h hvisit₁
    exact hnodes

theorem visitOptional_quiet : ∀ (block : Option (Block String)) {s s' : Emission},
    quietOptional block = true → visitOptional block s = .ok s' → s'.declared = s.declared
  | none, _, _, _, hvisit => by
    cases hvisit
    rfl
  | some b, _, _, h, hvisit => b.visit_quiet h hvisit

theorem visitAll_quiet : ∀ (nodes : List (Node String)) {s s' : Emission},
    quietAll nodes = true → visitAll nodes s = .ok s' → s'.declared = s.declared
  | [], _, _, _, hvisit => by
    cases hvisit
    rfl
  | n :: rest, _, _, h, hvisit => by
    obtain ⟨hn, hrest⟩ := Bool.and_eq_true_iff.1 h
    rw [visitAll] at hvisit
    obtain ⟨s₁, hvisit₁, hvisit⟩ := exists_of_bind hvisit
    exact (visitAll_quiet rest hrest hvisit).trans (n.visit_quiet hn hvisit₁)

theorem Code.emit_quiet : ∀ (c : Code String) {s s' : Emission}, c.isQuiet = true →
    c.emit s = .ok s' → s'.declared = s.declared
  | .mk _ value buffered escaped none, _, _, _, hvisit => by
    cases hvisit
    cases buffered <;> rfl
  | .mk _ value true escaped (some b), s, s', h, hvisit => by
    have hvisit₁ : b.visit (emitCode value true escaped s) = .ok s' := hvisit
    have hblock := b.visit_quiet h hvisit₁
    exact hblock
  | .mk _ value false escaped (some b), _, _, h, hvisit => by
    obtain ⟨s₁, hvisit₁, hvisit⟩ := exists_of_bind hvisit
    cases hvisit
    have hblock := b.visit_quiet h hvisit₁
    exact hblock

theorem emitInline_quiet : ∀ (code : Option (Code String)) {s s' : Emission},
    quietInline code = true → emitInline code s = .ok s' → s'.declared = s.declared
  | none, _, _, _, hvisit => by
    cases hvisit
    rfl
  | some c, _, _, h, hvisit => c.emit_quiet h hvisit

end

/-- A comment that declares no variables stands for nothing. -/
theorem blockComment_reaches (s : Emission) {line : Int} {value : String}
    {block : Option (Block String)} {buffered : Bool}
    (h : (!buffered || (firstFault (insideOptional block)).isNone && quietOptional block) = true) :
    Reaches s ((Node.blockComment line value block buffered).visit s) := by
  cases buffered with
  | false => exact .ok s
  | true =>
    obtain ⟨hnone, hquiet⟩ := Bool.and_eq_true_iff.1 h
    obtain ⟨t, ht⟩ := (exists_visitOptional_iff {}).2 (Option.isNone_iff_eq_none.1 hnone)
    obtain ⟨s', fragments, hvisit, hfragments, hcomment⟩ := visit_singleComment ht line value s
    obtain ⟨a, ha⟩ := (Node.blockComment line value block true).visit_local s s' hvisit
    have hsource : s'.source.toList
        = s.source.toList ++ (String.join fragments.toList).toList := by
      rw [Emission.source, hfragments, Emission.source, Array.toList_append, String.join_append,
        String.toList_append]
    have hdepth : s'.depth = s.depth := by
      rw [ha.eq_extend hvisit]
      rfl
    have hdeclared : s'.declared = s.declared :=
      (Node.blockComment line value block true).visit_quiet hquiet hvisit
    refine ⟨s', _, [], hvisit, hsource, ⟨(passage_of_skip hcomment.passed).phrase, ?_⟩, hdepth⟩
    rw [hdeclared]
    exact .nil s.declared

/-! ## All visits -/

mutual

/-- The visit of a regular node appends a stretch of the source. -/
theorem Node.visit_reaches : ∀ (n : Node String) {s : Emission}, n.isRegular = true →
    -1 ≤ s.depth → Reaches s (n.visit s)
  | .block b, _, h, hdepth => b.visit_reaches h hdepth
  | .tag _ name attrs spreads block code, _, h, hdepth => by
    simp only [Node.isRegular, Bool.and_eq_true] at h
    exact tag_reaches h.1.1 hdepth (emitInline_reaches code h.1.2) (visitOptional_reaches block h.2)
  | .text _ value, s, h, _ => (text_reaches s.deeper h).level
  | .code c, _, h, hdepth => (c.emit_reaches h (neg_one_le_deeper hdepth)).level
  | .choice _ subject none, _, h, _ => by
    rw [Node.isRegular, regularChoice, Bool.and_false] at h
    cases h
  | .choice _ subject (some (.mk _ nodes)), _, h, hdepth => by
    simp only [Node.isRegular, regularChoice, Bool.and_eq_true, decide_eq_true_eq] at h
    exact choice_reaches h.1 h.2.2 hdepth (visitBranches_reaches nodes h.2.1)
  | .each _ collection value key block alternative, _, h, hdepth => by
    simp only [Node.isRegular, Bool.and_eq_true] at h
    exact each_reaches h.1.1 hdepth (visitOptional_reaches block h.1.2)
      (visitOptional_reaches alternative h.2)
  | .slot _, s, _, _ => by
    have hslot : isArguments "block ? block() : null".toList = true := by decide +kernel
    exact (output_reaches s.deeper isWord_text hslot).level
  | .comment _ _ _, s, h, _ => comment_reaches s h
  | .blockComment _ _ _ _, s, h, _ => blockComment_reaches s h
  | .literal _ value, s, h, _ => by
    obtain ⟨ss, hphrase, haloof⟩ := exists_statements h
    have hline : (String.join [value, "\n"]).toList = value.toList ++ ['\n'] := by simp
    rw [← hline] at hphrase
    exact reaches_emit s (stretch_of_isAloof hphrase haloof s.declared)

theorem Block.visit_reaches : ∀ (b : Block String) {s : Emission}, b.isRegular = true →
    -1 ≤ s.depth → Reaches s (b.visit s)
  | .mk _ nodes, _, h, hdepth => (visitAll_reaches nodes h (neg_one_le_deeper hdepth)).level

theorem visitOptional_reaches : ∀ (block : Option (Block String)) {s : Emission},
    regularOptional block = true → -1 ≤ s.depth → Reaches s (visitOptional block s)
  | none, s, _, _ => .ok s
  | some b, _, h, hdepth => b.visit_reaches h hdepth

theorem visitAll_reaches : ∀ (nodes : List (Node String)) {s : Emission},
    regularAll nodes = true → -1 ≤ s.depth → Reaches s (visitAll nodes s)
  | [], s, _, _ => .ok s
  | n :: rest, _, h, hdepth => by
    obtain ⟨hn, hrest⟩ := Bool.and_eq_true_iff.1 h
    exact (n.visit_reaches hn hdepth).bind fun s' hs' =>
      visitAll_reaches rest hrest (hs' ▸ hdepth)

theorem Code.emit_reaches : ∀ (c : Code String) {s : Emission}, c.isRegular = true →
    -1 ≤ s.depth → Reaches s (c.emit s)
  | .mk _ value buffered escaped block, _, h, hdepth => by
    obtain ⟨hvalue, hblock⟩ := Bool.and_eq_true_iff.1 h
    exact code_reaches hvalue hdepth (visitOptional_reaches block hblock)

theorem emitInline_reaches : ∀ (code : Option (Code String)) {s : Emission},
    regularInline code = true → -1 ≤ s.depth → Reaches s (emitInline code s)
  | none, s, _, _ => .ok s
  | some c, _, h, hdepth => c.emit_reaches h hdepth

theorem visitBranches_reaches : ∀ (nodes : List (Node String)) {s : Emission},
    regularBranches nodes = true → -1 ≤ s.depth →
    ReachesClauses s (visitAll nodes s) (nodes.countP isDefault)
  | [], s, _, _ => ⟨s, [], [], rfl, (List.append_nil _).symm, .nil _, rfl, rfl⟩
  | .branch _ label block :: rest, _, h, hdepth => by
    simp only [regularBranches, Bool.and_eq_true, Bool.or_eq_true, beq_iff_eq] at h
    rw [List.countP_cons]
    exact branch_reaches h.1.1 hdepth (visitOptional_reaches block h.1.2)
      (visitBranches_reaches rest h.2)
  | .comment _ _ _ :: rest, _, h, hdepth => by
    obtain ⟨hcomment, hrest⟩ := Bool.and_eq_true_iff.1 h
    exact remark_reaches hcomment fun ht => visitBranches_reaches rest hrest (ht ▸ hdepth)

end

/-- A regular template is generated and its source is a program. Every scope of the program declares
the temporary variables that it sets or switches on, each of them once. -/
theorem temporary_declared_once {n : Node String} (h : n.isRegular = true) :
    ∃ found program, n.generate = .ok found ∧ parse found.source = some program ∧
      ∀ body ∈ program :: stmtFunctionBodies program, ∀ depth : Int,
        Marker.temporary depth ∈ targetsAll body →
          (varNamesAll body).count (Marker.temporary depth) = 1 := by
  obtain ⟨s, text, program, hvisit, hsource, hstretch, -⟩ :=
    @Node.visit_reaches n {} h (Int.le_refl _)
  obtain rfl : s.source.toList = text := hsource
  refine ⟨⟨s.source, s.fragments.size, s.helpers⟩, program, ?_, hstretch.phrase.parse_eq, ?_⟩
  · rw [Node.generate, hvisit]
  · intro body hbody depth hdepth
    exact (hstretch.grows.tidy_bodies body hbody).count_eq_one (isReserved_reserve _) hdepth

/-- Two choices in one function, one of them behind the head of a statement, and one at the same
depth in the function of an iteration, among other code of the author. -/
theorem temporary_declared_once_siblings :
    ∃ found program, Node.generate (.block (.mk 1 [
        .tag 1 "p" [⟨"id", "a++ / 2"⟩] [] (some (.mk 1 [
          .choice 2 "a.kind" (some (.mk 2 [
            .branch 3 "'x'" (some (.mk 3 [.text 3 "#{a[0]}!"])),
            .branch 4 "default" none]))])) none,
        .blockComment 5 "" (some (.mk 5 [.text 5 "none"])) true,
        .each 6 "a.items" "item" none
          (some (.mk 6 [.choice 7 "item" (some (.mk 7 [.branch 8 "default" none]))])) none,
        .code (.mk 9 "if (a.size > 1)" false true
          (some (.mk 9 [.choice 10 "a" (some (.mk 10 [.branch 11 "default" none]))])))]))
        = .ok found ∧
      parse found.source = some program ∧
      ∀ body ∈ program :: stmtFunctionBodies program, ∀ depth : Int,
        Marker.temporary depth ∈ targetsAll body →
          (varNamesAll body).count (Marker.temporary depth) = 1 :=
  temporary_declared_once (by decide +kernel)

/-! ## Comments -/

/-- The tokens of spelled text behind a comment. -/
theorem tokenize_comment {inside : List Char} {parts : List Lexeme} {source : String}
    (hinside : Unended inside) (hspelled : Spelled parts)
    (hsource : source.toList = '/' :: '*' :: (inside ++ '*' :: '/' :: '\n' :: spelling parts)) :
    (tokenize source).map (·.kind) = kinds parts ++ [TokenKind.eof] := by
  have hlook : ({} : LexState).look source.toList
      = .skip (({} : LexState).withGap .comment) (spelling (.line :: parts)) := by
    rw [hsource, LexState.look, hinside]
    rfl
  have hlength : parts.length + 2 ≤ source.toList.length := by
    have hparts := length_le_length_spelling hspelled
    rw [hsource]
    simp
    omega
  have htokens := tokensFrom_spelling (.line :: parts) (({} : LexState).withGap .comment)
    (source.toList.length - (parts.length + 2)) hspelled fun _ hcalm => by cases hcalm.1
  rw [tokenize, LexState.tokens, tokensFrom_skip hlook, ← kinds_line, ← htokens]
  congr 2
  rw [List.length_cons]
  omega

/-- The nodes behind a comment are translated as if the variables of the choices in the comment had
been declared. -/
theorem parse_generate_comment {start line : Int} {value : String} {block : Option (Block String)}
    {nodes : List (Node String)} (hblock : structuralOptional block = true)
    (hnodes : structuralAll nodes = true) :
    ∃ found,
      Node.generate (.block (.mk start (.blockComment line value block true :: nodes)))
        = .ok found ∧
      parse found.source = some (translateAll 0 (translateOptional 1 [] block).2 nodes).1 := by
  let opened := ({} : Emission).deeper.deeper.capture.emit ["/*", value, "\n"]
  have hopened : -1 ≤ opened.depth := show (-1 : Int) ≤ 1 by decide
  obtain ⟨inner, commented, hvisit, hemits, -, hdepth, hdeclared⟩ :=
    visitOptional_writes block hblock hopened
  let text := String.ofList (breakCommentEnds inner.source.toList)
  let closed := ((inner.release #[]).emit [text, "*/", "\n"]).shallower
  have hlevel : closed.depth = 0 := congrArg (· - 1) hdepth
  have hclosed : closed.declared = (translateOptional 1 [] block).2 := hdeclared
  obtain ⟨s, parts, hvisit', hemits', hreads, -, -⟩ :=
    @visitAll_writes nodes closed hnodes (by rw [hlevel]; decide)
  rw [hlevel, hclosed] at hreads
  -- the source is one comment, a line end and the lines of the nodes
  have hinner : inner.source.toList
      = '/' :: '*' :: (value.toList ++ '\n' :: spelling commented) := by
    rw [hemits.source]
    simp [opened, Emission.emit, Emission.source, Emission.capture]
  obtain ⟨inside, hinside, hunended⟩ :=
    exists_breakCommentEnds (value.toList ++ '\n' :: spelling commented)
  have htext : text.toList = '/' :: '*' :: inside := by
    rw [String.toList_ofList, hinner, hinside]
  have hsource : s.source.toList
      = '/' :: '*' :: (inside ++ '*' :: '/' :: '\n' :: spelling parts) := by
    rw [hemits'.source]
    simp [closed, Emission.emit, Emission.source, Emission.release, Emission.shallower, htext]
  refine ⟨⟨s.shallower.source, s.shallower.fragments.size, s.shallower.helpers⟩, ?_, ?_⟩
  · have hcomment : Node.visit (.blockComment line value block true) ({} : Emission).deeper
        = .ok closed := by
      rw [Node.visit, if_pos rfl]
      show (visitOptional block opened >>= _) = _
      rw [hvisit]
      rfl
    have hall : Node.visit (.block (.mk start (.blockComment line value block true :: nodes))) {}
        = .ok s.shallower := by
      rw [Node.visit, Block.visit, visitAll, hcomment]
      show (visitAll nodes closed >>= _) = _
      rw [hvisit']
      rfl
    rw [Node.generate, hall]
  · refine parse_of_kinds (tokenize_comment hunended hemits'.spelled hsource) ?_ hreads
    have hparts := length_le_length_spelling hemits'.spelled
    have hkinds := length_kinds_le parts
    show (kinds parts).length ≤ s.source.length
    rw [← String.length_toList, hsource]
    simp
    omega

/-- A choice in a comment takes away the declaration of the next one at its depth: the program sets
the variable and switches on it, and no declaration is left. -/
theorem temporary_undeclared :
    ∃ found program, Node.generate (.block (.mk 1 [
        .blockComment 1 ""
          (some (.mk 1 [.choice 2 "a" (some (.mk 2 [.branch 3 "default" none]))])) true,
        .tag 4 "p" [] [] (some (.mk 4 [.choice 5 "b" (some (.mk 5 [.branch 6 "default" none]))]))
          none])) = .ok found ∧
      parse found.source = some program ∧
      Marker.temporary 3 ∈ targetsAll program ∧
      (varNamesAll program).count (Marker.temporary 3) = 0 := by
  obtain ⟨found, hgenerate, hparse⟩ := @parse_generate_comment 1 1 ""
    (some (.mk 1 [.choice 2 "a" (some (.mk 2 [.branch 3 "default" none]))]))
    [.tag 4 "p" [] [] (some (.mk 4 [.choice 5 "b" (some (.mk 5 [.branch 6 "default" none]))])) none]
    (by decide) (by decide)
  exact ⟨found, _, hgenerate, hparse, by decide, by decide⟩

end Espalier.Template
