import Espalier.Proofs.Template.Announced
import Espalier.Proofs.Template.Faults
import Espalier.Proofs.Template.Frame
import Mathlib.Data.List.Induction
import Mathlib.Data.List.Nodup

/-!
# Helpers that generated source calls

An iteration and an element with merged properties each ask for a helper (`Node.request?`) and write
its call, the one before the source of its bodies and the other before the source of its children.
So the calls in the source of a template stand in the order in which the helpers were asked for,
also where the source was collected apart and put in later. `Calling` lists the calls of a text, and
`Node.visit_asks` says that a visit adds a text whose calls are the requests of the visited nodes.
Main statement: `generate_requests`.
-/

namespace Espalier

open Espalier.Text

/-! ## Requests -/

theorem Helper.nodup_request {helpers : List Helper} (h : Helper) (hnodup : helpers.Nodup) :
    (h.request helpers).Nodup := by
  unfold Helper.request
  split
  case isTrue => exact hnodup
  case isFalse hmem => exact List.nodup_append_comm.1 (List.nodup_cons.2 ⟨hmem, hnodup⟩)

theorem nodup_requestAll (uses : List Helper) {helpers : List Helper} (hnodup : helpers.Nodup) :
    (requestAll uses helpers).Nodup := by
  induction uses generalizing helpers with
  | nil => exact hnodup
  | cons h uses ih => exact ih (h.nodup_request hnodup)

/-- Helpers that are asked for from the beginning are there in the order of their first requests. -/
theorem requestAll_nil (uses : List Helper) : requestAll uses [] = uses.eraseDups := by
  induction uses using List.reverseRecOn with
  | nil => rfl
  | append_singleton uses h ih =>
    have hlast : requestAll [h] uses.eraseDups = h.request uses.eraseDups := rfl
    rw [requestAll_append, ih, hlast, List.eraseDups_append, Helper.request]
    by_cases hmem : h ∈ uses <;> simp [List.removeAll, List.eraseDups_cons, hmem]

theorem Helper.source_injective {h h' : Helper} (heq : h.source = h'.source) : h = h' := by
  have hne : Helper.iterate.source ≠ Helper.merge.source := by decide +kernel
  cases h <;> cases h'
  case iterate.iterate | merge.merge => rfl
  case iterate.merge => exact absurd heq hne
  case merge.iterate => exact absurd heq.symm hne

/-! ## Calls in a text -/

/-- What makes the name of a helper a reserved one. -/
def Helper.core : Helper → String
  | .iterate => "map"
  | .merge => "attrs"

/-- What follows the first letter of a reserved name where a helper is called. -/
def Helper.callTail (h : Helper) : List Char :=
  (h.core ++ String.singleton Marker.closing ++ "(").toList

theorem Helper.toList_call (h : Helper) :
    (h.name ++ "(").toList = Marker.opening :: h.callTail := by
  cases h <;> rfl

/-- The character is the first one of a helper's name. -/
def isInitial (c : Char) : Bool :=
  c == 'm' || c == 'a'

/-- The helpers that a text calls, in order. The other reserved names in it do not begin as those of
helpers do. -/
inductive Calling : List Helper → List Char → Prop
  | nil : Calling [] []
  | other {calls : List Helper} {c : Char} {cs : List Char} :
    (c = Marker.opening → ∃ d, cs.head? = some d ∧ isInitial d = false) → Calling calls cs →
      Calling calls (c :: cs)
  | call {calls : List Helper} {cs : List Char} (h : Helper) : h.callTail <+: cs →
    Calling calls cs → Calling (h :: calls) (Marker.opening :: cs)

section
variable {calls calls' : List Helper} {a b cs : List Char}

theorem Calling.append (ha : Calling calls a) (hb : Calling calls' b) :
    Calling (calls ++ calls') (a ++ b) := by
  induction ha with
  | nil => exact hb
  | other hc _ ih =>
    refine .other (fun heq => ?_) ih
    obtain ⟨d, hhead, hd⟩ := hc heq
    exact ⟨d, List.head?_append.trans (by rw [hhead, Option.some_or]), hd⟩
  | call h htail _ ih => exact .call h (htail.trans (List.prefix_append _ b)) ih

/-- Text that calls nothing, before other text. -/
theorem Calling.after (hb : Calling calls b) (ha : Calling [] a) : Calling calls (a ++ b) :=
  ha.append hb

/-- Text that calls nothing, behind other text. -/
theorem Calling.before (ha : Calling calls a) (hb : Calling [] b) : Calling calls (a ++ b) := by
  have hboth := ha.append hb
  rwa [List.append_nil] at hboth

theorem calling_of_not_mem (h : Marker.opening ∉ cs) : Calling [] cs := by
  induction cs with
  | nil => exact .nil
  | cons c cs ih =>
    rw [List.mem_cons, not_or] at h
    exact .other (fun hc => absurd hc.symm h.1) (ih h.2)

theorem calling_of_unmarked {text : String} (h : Unmarked text) : Calling [] text.toList :=
  calling_of_not_mem h

/-- A reserved name that is not that of a helper. -/
theorem calling_reserve {core : String} {c : Char} (hcore : core.toList.head? = some c)
    (hc : isInitial c = false) (hunmarked : Unmarked core) :
    Calling [] (Marker.reserve core).toList := by
  have htext :
      (Marker.reserve core).toList = Marker.opening :: (core.toList ++ [Marker.closing]) := by
    simp [Marker.reserve]
  rw [htext]
  refine .other (fun _ => ⟨c, by rw [List.head?_append, hcore]; rfl, hc⟩) ?_
  exact (calling_of_unmarked hunmarked).append (calling_of_not_mem (by decide))

/-- The name of a helper and the parenthesis behind it. -/
theorem calling_helper (h : Helper) : Calling [h] (h.name ++ "(").toList := by
  rw [h.toList_call]
  refine .call h (List.prefix_refl h.callTail) (calling_of_not_mem ?_)
  cases h <;> decide

/-- A call of another reserved name, with helpers that its arguments call. -/
theorem calling_call {core : String} {c : Char} {args : List String}
    (hcore : core.toList.head? = some c) (hc : isInitial c = false) (hunmarked : Unmarked core)
    (hargs : Calling calls (String.intercalate "," args).toList) :
    Calling calls (Marker.call (Marker.reserve core) args).toList := by
  rw [Marker.call, String.toList_append, String.toList_append, String.toList_append]
  refine (hargs.after ?_).before (calling_of_not_mem (by decide))
  exact (calling_reserve hcore hc hunmarked).append (calling_of_not_mem (by decide))

/-- Where a helper is called, no other text of the name begins. -/
theorem Helper.callTail_head (h : Helper) :
    ∃ d, isInitial d = true ∧ ∃ rest, h.callTail = d :: rest := by
  cases h
  · exact ⟨'m', rfl, _, rfl⟩
  · exact ⟨'a', rfl, _, rfl⟩

theorem Helper.eq_of_callTail_prefix {h h' : Helper} (ha : h.callTail <+: cs)
    (hb : h'.callTail <+: cs) : h = h' := by
  cases cs with
  | nil =>
    obtain ⟨d, -, rest, heq⟩ := h.callTail_head
    rw [heq] at ha
    cases List.prefix_nil.1 ha
  | cons c cs =>
    cases h <;> cases h'
    case iterate.iterate | merge.merge => rfl
    all_goals
      obtain rfl := (List.cons_prefix_cons.1 ha).1
      cases (List.cons_prefix_cons.1 hb).1

/-- A helper is among the calls of a text exactly when its name stands in it with a parenthesis
behind. -/
theorem Calling.mem_iff (hcalling : Calling calls cs) {h : Helper} :
    h ∈ calls ↔ (h.name ++ "(").toList <:+: cs := by
  rw [h.toList_call]
  induction hcalling with
  | nil => simp
  | @other calls c cs hc _ ih =>
    rw [ih, List.infix_cons_iff, or_iff_right]
    intro hprefix
    obtain ⟨rfl, htail⟩ := List.cons_prefix_cons.1 hprefix
    obtain ⟨d, hhead, hd⟩ := hc rfl
    obtain ⟨e, he, rest, heq⟩ := h.callTail_head
    obtain ⟨more, rfl⟩ := htail
    rw [heq] at hhead
    cases hhead
    rw [hd] at he
    cases he
  | @call calls cs h' htail _ ih =>
    rw [List.mem_cons, ih, List.infix_cons_iff, List.cons_prefix_cons]
    refine or_congr_left ⟨fun heq => ⟨rfl, heq ▸ htail⟩, fun hprefix => ?_⟩
    exact Helper.eq_of_callTail_prefix hprefix.2 htail

end

namespace Template

/-! ### Comments -/

theorem breakCommentEnds_append_of_not_mem {a b : List Char} (h : '*' ∉ a) :
    breakCommentEnds (a ++ b) = a ++ breakCommentEnds b := by
  induction a with
  | nil => rfl
  | cons c a ih =>
    rw [List.mem_cons, not_or] at h
    rw [List.cons_append, breakCommentEnds_cons fun heq => absurd heq.symm h.1, ih h.2]
    rfl

/-- A character stays in front, and what is put behind it in a comment is a blank. -/
theorem breakCommentEnds_cons_cases (c : Char) (cs : List Char) :
    breakCommentEnds (c :: cs) = c :: breakCommentEnds cs ∨
      c = '*' ∧ breakCommentEnds (c :: cs) = c :: ' ' :: breakCommentEnds cs := by
  by_cases h : c = '*' ∧ cs.head? = some '/'
  · obtain ⟨rfl, hhead⟩ := h
    obtain ⟨rest, rfl⟩ := List.head?_eq_some_iff.1 hhead
    exact .inr ⟨rfl, rfl⟩
  · exact .inl (breakCommentEnds_cons fun hc hhead => h ⟨hc, hhead⟩)

/-- The calls of a text stay in a comment. -/
theorem calling_breakCommentEnds {calls : List Helper} {cs : List Char} (h : Calling calls cs) :
    Calling calls (breakCommentEnds cs) := by
  induction h with
  | nil => exact .nil
  | @other calls c cs hc _ ih =>
    obtain heq | ⟨rfl, heq⟩ := breakCommentEnds_cons_cases c cs
    · rw [heq]
      exact .other (fun hopening => by rw [head?_breakCommentEnds]; exact hc hopening) ih
    · rw [heq]
      exact .other (by rintro ⟨⟩) (.other (by rintro ⟨⟩) ih)
  | @call calls cs h htail _ ih =>
    obtain ⟨rest, rfl⟩ := htail
    have hstar : '*' ∉ h.callTail := by cases h <;> decide
    rw [breakCommentEnds_cons (by rintro ⟨⟩)]
    refine .call h ?_ ih
    rw [breakCommentEnds_append_of_not_mem hstar]
    exact List.prefix_append _ _

/-! ### What a visit adds -/

/-- From `s` to `s'` a text was added, and the helpers that it calls were asked for in the order of
its calls. -/
def Asks (calls : List Helper) (s s' : Emission) : Prop :=
  s'.helpers = requestAll calls s.helpers ∧
    ∃ text, Calling calls text ∧ s'.source.toList = s.source.toList ++ text

/-- Whatever the visit gives asks for these helpers after `s`. -/
def Asking (calls : List Helper) (s : Emission)
    (visited : Except GenerateFailure Emission) : Prop :=
  ∀ s', visited = .ok s' → Asks calls s s'

section
variable {calls calls' : List Helper} {s t u : Emission}

theorem Asks.refl (s : Emission) : Asks [] s s :=
  ⟨rfl, [], .nil, (List.append_nil _).symm⟩

theorem Asks.trans (h : Asks calls s t) (h' : Asks calls' t u) : Asks (calls ++ calls') s u := by
  obtain ⟨hhelpers, text, htext, hsource⟩ := h
  obtain ⟨hhelpers', text', htext', hsource'⟩ := h'
  refine ⟨by rw [hhelpers', hhelpers, requestAll_append], text ++ text', htext.append htext', ?_⟩
  rw [hsource', hsource, List.append_assoc]

/-- Text that calls nothing is added. -/
theorem Asks.emit {fragments : List String} (h : Asks calls s t)
    (hfragments : ∀ fragment ∈ fragments, Calling [] fragment.toList) :
    Asks calls s (t.emit fragments) := by
  have hjoin : Calling [] (String.join fragments).toList := by
    clear h
    induction fragments with
    | nil => exact .nil
    | cons fragment fragments ih =>
      obtain ⟨hfirst, hrest⟩ := List.forall_mem_cons.1 hfragments
      rw [String.join_cons, String.toList_append]
      exact (ih hrest).after hfirst
  have hemit : Asks [] t (t.emit fragments) := by
    refine ⟨rfl, (String.join fragments).toList, hjoin, ?_⟩
    rw [toList_source_emit]
  have hboth := h.trans hemit
  rwa [List.append_nil] at hboth

theorem Asks.emit_unmarked {fragments : List String} (h : Asks calls s t)
    (hfragments : ∀ fragment ∈ fragments, Unmarked fragment) : Asks calls s (t.emit fragments) :=
  h.emit fun fragment hfragment => calling_of_unmarked (hfragments fragment hfragment)

theorem Asking.ok (h : Asks calls s t) : Asking calls s (.ok t) := by
  rintro _ ⟨⟩
  exact h

theorem Asking.refuse {fault : GenerateFault} : Asking calls s (refuse t fault) := nofun

theorem Asking.bind {visited : Except GenerateFailure Emission}
    {next : Emission → Except GenerateFailure Emission} (h : Asking calls s visited)
    (hnext : ∀ t, Asks calls s t → Asking calls' u (next t)) :
    Asking calls' u (visited >>= next) := by
  intro s' hs'
  cases visited with
  | error failure => cases hs'
  | ok t => exact hnext t (h t rfl) s' hs'

/-- What is visited behind what has been added. -/
theorem Asks.then {visited : Except GenerateFailure Emission} (h : Asks calls s t)
    (hvisited : Asking calls' t visited) : Asking (calls ++ calls') s visited :=
  fun s' hs' => h.trans (hvisited s' hs')

/-! ### One step -/

/-- An output call. -/
theorem calling_output (kind : SegmentKind) {source : String} (h : Unmarked source) :
    Calling [] (Marker.call kind.marker [source]).toList := by
  have hargs : Calling [] (String.intercalate "," [source]).toList := by
    rw [String.intercalate_singleton]
    exact calling_of_unmarked h
  cases kind with
  | text => exact calling_call (c := 't') rfl rfl (by decide) hargs
  | raw => exact calling_call (c := 'u') rfl rfl (by decide) hargs

/-- The helpers that the properties of an element call. -/
def propertyCalls (spreads : List String) : List Helper :=
  if spreads.isEmpty then [] else [.merge]

theorem calling_properties {attrs : List (Attribute String)} {spreads : List String}
    {helpers : List Helper} (hattrs : ∀ attr ∈ attrs, Unmarked attr.name ∧ Unmarked attr.value)
    (hspreads : ∀ spread ∈ spreads, Unmarked spread) :
    Calling (propertyCalls spreads) (propertiesOf attrs spreads helpers).1.toList := by
  unfold propertyCalls propertiesOf
  split
  · dsimp only
    split
    · exact calling_of_unmarked (by decide)
    · exact calling_of_unmarked (unmarked_objectLiteral hattrs)
  · have hargs : ∀ arg ∈ staticPart attrs ++ spreads, Unmarked arg := by
      refine List.forall_mem_append.2 ⟨?_, hspreads⟩
      unfold staticPart
      split
      · exact fun part hpart => absurd hpart List.not_mem_nil
      · exact List.forall_mem_singleton.2 (unmarked_objectLiteral hattrs)
    rw [Marker.call, String.append_assoc, String.toList_append]
    refine (calling_helper .merge).before (calling_of_unmarked ?_)
    exact unmarked_append.2 ⟨unmarked_intercalate (by decide) hargs, by decide⟩

theorem asks_element {name : String} {attrs : List (Attribute String)} {spreads : List String}
    (hname : Unmarked name) (hattrs : ∀ attr ∈ attrs, Unmarked attr.name ∧ Unmarked attr.value)
    (hspreads : ∀ spread ∈ spreads, Unmarked spread) :
    Asks (propertyCalls spreads) s (emitElement name attrs spreads s) := by
  have hhelpers : (propertiesOf attrs spreads s.helpers).2
      = requestAll (propertyCalls spreads) s.helpers := by
    unfold propertiesOf propertyCalls
    split <;> rfl
  have hargs : Calling (propertyCalls spreads) (String.intercalate ","
      [elementType name, (propertiesOf attrs spreads s.helpers).1]).toList := by
    rw [String.intercalate_cons_cons, String.intercalate_singleton, String.toList_append]
    refine (calling_properties hattrs hspreads).after (calling_of_unmarked ?_)
    exact unmarked_append.2 ⟨unmarked_elementType hname, by decide⟩
  have hcall : Calling (propertyCalls spreads) (Marker.call Marker.element
      [elementType name, (propertiesOf attrs spreads s.helpers).1]).toList :=
    calling_call (c := 'D') rfl rfl (by decide) hargs
  have hopening : Calling [] ";\n\x7b\n".toList := calling_of_unmarked (by decide)
  refine ⟨hhelpers, _, hcall.before hopening, ?_⟩
  rw [emitElement, toList_source_emit, String.join_cons, String.join_cons,
    String.join_nil, String.append_empty, String.toList_append]
  rfl

theorem asking_text {value : String} (h : Unmarked value) : Asking [] s (emitText value s) := by
  have hsegments := unmarked_segments h
  unfold emitText
  split
  case h_1 segments hvalue =>
    rw [hvalue] at hsegments
    refine .ok ((Asks.refl s).emit fun fragment hfragment => ?_)
    obtain ⟨segment, hsegment, rfl⟩ := List.mem_map.1 hfragment
    rw [String.toList_append]
    exact (calling_output segment.kind (hsegments segment hsegment)).before
      (calling_of_unmarked (by decide))
  case h_2 => exact .refuse

theorem asks_code {value : String} {buffered escaped : Bool} (h : Unmarked value) :
    Asks [] s (emitCode value buffered escaped s) := by
  unfold emitCode
  split
  · have hcall : Calling []
        (Marker.call (if escaped then Marker.text else Marker.raw) [value]).toList := by
      cases escaped with
      | true => exact calling_output .text h
      | false => exact calling_output .raw h
    exact (Asks.refl s).emit (List.forall_mem_cons.2 ⟨hcall, List.forall_mem_singleton.2
      (calling_of_unmarked (by decide))⟩)
  · exact (Asks.refl s).emit_unmarked
      (List.forall_mem_cons.2 ⟨h, List.forall_mem_singleton.2 (by decide)⟩)

theorem calling_temporary (depth : Int) : Calling [] (Marker.temporary depth).toList := by
  refine calling_reserve (c := 't') ?_ rfl (unmarked_append.2 ⟨by decide, unmarked_toString depth⟩)
  rw [String.toList_append]
  rfl

theorem asks_temporary {depth : Int} {subject : String} (h : Unmarked subject) :
    Asks [] s (s.temporary depth (some subject)).1 := by
  have hname : ∀ rest, Unmarked rest → Calling [] (Marker.temporary depth ++ rest).toList := by
    intro rest hrest
    rw [String.toList_append]
    exact (calling_temporary depth).before (calling_of_unmarked hrest)
  rw [Emission.temporary_fst]
  split
  · refine (Asks.refl s).emit fun fragment hfragment => ?_
    obtain ⟨rest, rfl, hrest⟩ := exists_of_mem_assignment h hfragment
    exact hname rest hrest
  · obtain ⟨rest, hdeclaration, hrest⟩ := exists_declaration depth h
    have hdeclared : Calling [] (Emission.declaration depth (some subject)).toList := by
      rw [hdeclaration, String.toList_append]
      exact (hname rest hrest).after (calling_of_unmarked (by decide))
    exact (Asks.refl s).emit (List.forall_mem_singleton.2 hdeclared)

/-- The call of an iteration's helper, with the calls in its functions. -/
theorem calling_iteration {collection params body tail : String} (hcollection : Unmarked collection)
    (hparams : Unmarked params) (hbody : Calling calls body.toList)
    (htail : Calling calls' tail.toList) :
    Calling (.iterate :: (calls ++ calls')) (Marker.iterate ++ "(" ++ collection ++ ",function("
      ++ params ++ ")\x7b\n" ++ body ++ "\x7d" ++ tail ++ ")").toList := by
  have hhead : Calling [] (collection ++ ",function(" ++ params ++ ")\x7b\n").toList :=
    calling_of_unmarked (by simpa using ⟨⟨⟨hcollection, by decide⟩, hparams⟩, by decide⟩)
  have hclose : Calling [] "\x7d".toList := calling_of_unmarked (by decide)
  have hlast : Calling [] ")".toList := calling_of_unmarked (by decide)
  have hwhole := (calling_helper .iterate).append
    (((hbody.append ((htail.after hclose).before hlast))).after hhead)
  simpa [Helper.name] using hwhole

/-! ### One node -/

section
variable {line : Int} {block alternative : Option (Block String)}

theorem tag_asking {name : String} {attrs : List (Attribute String)} {spreads : List String}
    {code : Option (Code String)}
    (htexts : ∀ text ∈ (Node.tag line name attrs spreads block code).authored, Unmarked text)
    (hcode : ∀ s, Asking calls s (emitInline code s))
    (hblock : ∀ s, Asking calls' s (visitOptional block s)) :
    Asking (propertyCalls spreads ++ calls ++ calls') s
      ((Node.tag line name attrs spreads block code).visit s) := by
  simp only [Node.authored, List.forall_mem_append, List.forall_mem_cons, List.forall_mem_map]
    at htexts
  obtain ⟨⟨⟨⟨⟨hname, hnames⟩, hvalues⟩, hspreads⟩, -⟩, -⟩ := htexts
  have helement : Asks (propertyCalls spreads) s (emitElement name attrs spreads s.deeper) :=
    asks_element (s := s.deeper) hname (fun attr hattr => ⟨hnames attr hattr, hvalues attr hattr⟩)
      hspreads
  rw [Node.visit]
  refine (helement.then (hcode _)).bind fun inner hinner => ?_
  refine (hinner.then (hblock inner)).bind fun last hlast => .ok ?_
  exact hlast.emit_unmarked (List.forall_mem_singleton.2 (by decide))

theorem choice_asking {subject : String} (hsubject : Unmarked subject)
    (hblock : ∀ s, Asking calls s (visitOptional block s)) :
    Asking calls s ((Node.choice line subject block).visit s) := by
  have hdeclared : Asks [] s (s.deeper.temporary s.deeper.depth (some subject)).1 :=
    asks_temporary (s := s.deeper) hsubject
  have hswitch : Calling []
      ("switch(" ++ (s.deeper.temporary s.deeper.depth (some subject)).2 ++ ")\x7b\n").toList := by
    rw [Emission.temporary_snd, String.toList_append, String.toList_append]
    exact ((calling_temporary _).after (calling_of_unmarked (by decide))).before
      (calling_of_unmarked (by decide))
  have hopened := hdeclared.emit (List.forall_mem_singleton.2 hswitch)
  rw [Node.visit]
  cases block with
  | none => exact .refuse
  | some b =>
    refine (hopened.then (hblock _)).bind fun last hlast => .ok ?_
    exact hlast.emit_unmarked (List.forall_mem_singleton.2 (by decide))

theorem branch_asking {label : String} (hlabel : Unmarked label)
    (hblock : ∀ s, Asking calls s (visitOptional block s)) :
    Asking calls s ((Node.branch line label block).visit s) := by
  have hlabeled : Asks [] s (emitLabel label s.deeper) := by
    refine (Asks.refl s.deeper).emit_unmarked (List.forall_mem_singleton.2 ?_)
    split
    · decide
    · simpa using ⟨⟨by decide, hlabel⟩, by decide⟩
  rw [Node.visit]
  refine (hlabeled.then (hblock _)).bind fun last hlast => .ok ?_
  exact hlast.emit_unmarked (List.forall_mem_singleton.2 (by decide))

/-- The helper is asked for before the bodies are visited, and its call is written before the source
of the bodies, which is collected apart. -/
theorem each_asking {collection value : String} {key : Option String}
    (hcollection : Unmarked collection) (hvalue : Unmarked value)
    (hkey : ∀ name ∈ key.toList, Unmarked name)
    (hblock : ∀ s, Asking calls s (visitOptional block s))
    (halternative : ∀ s, Asking calls' s (visitOptional alternative s))
    (hnone : alternative = none → calls' = []) :
    Asking (.iterate :: (calls ++ calls')) s
      ((Node.each line collection value key block alternative).visit s) := by
  have hparams : Unmarked (eachParams value key) := by
    cases key with
    | none => exact hvalue
    | some key =>
      exact unmarked_append.2 ⟨unmarked_append.2 ⟨hvalue, by decide⟩, hkey key List.mem_cons_self⟩
  rw [Node.visit]
  refine (hblock (enterBody (s.deeper.use .iterate))).bind fun inner hinner => ?_
  refine (halternative (enterBody _)).bind fun other hother => .ok ?_
  obtain ⟨hhelpers, body, hbody, hsource⟩ := hinner
  obtain ⟨hhelpers', others, hothers, hsource'⟩ := hother
  obtain rfl : inner.source.toList = body := hsource
  obtain rfl : other.source.toList = others := hsource'
  have htail : Calling calls' (if alternative.isSome then
      ",function()\x7b\n" ++ other.source ++ "\x7d" else "").toList := by
    cases alternative with
    | none =>
      rw [hnone rfl]
      exact .nil
    | some b =>
      show Calling calls' (",function()\x7b\n" ++ other.source ++ "\x7d").toList
      rw [String.toList_append, String.toList_append]
      exact (hothers.after (calling_of_unmarked (by decide))).before
        (calling_of_unmarked (by decide))
  have hcall := calling_iteration hcollection hparams hbody htail
  have hend : Calling [] ";\n".toList := calling_of_unmarked (by decide)
  refine ⟨?_, _, hcall.before hend, ?_⟩
  · show other.helpers = _
    rw [hhelpers', ← List.cons_append, requestAll_append]
    exact congrArg (requestAll calls') hhelpers
  · show (Emission.emit (leaveBody _ other).1 _).source.toList = _
    rw [toList_source_emit, String.join_cons, String.join_cons, String.join_nil,
      String.append_empty, String.toList_append]
    rfl

theorem comment_asking {value : String} {buffered : Bool} (hvalue : Unmarked value) :
    Asking [] s ((Node.comment line value buffered).visit s) := by
  rw [Node.visit]
  refine .ok ?_
  split
  · refine (Asks.refl s).emit_unmarked (List.forall_mem_cons.2 ⟨by decide, ?_⟩)
    exact List.forall_mem_cons.2 ⟨hvalue, List.forall_mem_singleton.2 (by decide)⟩
  · exact .refl s

theorem blockComment_asking {value : String} (hvalue : Unmarked value)
    (hblock : ∀ s, Asking calls s (visitOptional block s)) :
    Asking calls s ((Node.blockComment line value block true).visit s) := by
  have hopened : Asks [] s.deeper.capture (s.deeper.capture.emit ["/*", value, "\n"]) := by
    refine (Asks.refl _).emit_unmarked (List.forall_mem_cons.2 ⟨by decide, ?_⟩)
    exact List.forall_mem_cons.2 ⟨hvalue, List.forall_mem_singleton.2 (by decide)⟩
  rw [Node.visit, if_pos rfl]
  refine (hopened.then (hblock _)).bind fun inner hinner => .ok ?_
  obtain ⟨hhelpers, text, htext, hsource⟩ := hinner
  obtain rfl : inner.source.toList = text := hsource
  have hend : Calling [] "*/\n".toList := calling_of_unmarked (by decide)
  refine ⟨hhelpers, _, (calling_breakCommentEnds htext).before hend, ?_⟩
  show (Emission.emit (inner.release s.fragments) _).source.toList = _
  rw [toList_source_emit]
  simp [Emission.release, Emission.source]

theorem literal_asking {value : String} (hvalue : Unmarked value) :
    Asking [] s ((Node.literal line value).visit s) := by
  rw [Node.visit]
  refine .ok ((Asks.refl s).emit_unmarked (List.forall_mem_cons.2 ⟨hvalue, ?_⟩))
  exact List.forall_mem_singleton.2 (by decide)

theorem slot_asking : Asking [] s ((Node.slot line).visit s) := by
  have hargs : Unmarked "block ? block() : null" := by decide +kernel
  rw [Node.visit]
  refine .ok ((Asks.refl s.deeper).emit (List.forall_mem_cons.2 ⟨calling_output .text hargs, ?_⟩))
  exact List.forall_mem_singleton.2 (calling_of_unmarked (by decide))

theorem code_asking {value : String} {buffered escaped : Bool} (hvalue : Unmarked value)
    (hblock : ∀ s, Asking calls s (visitOptional block s)) (hnone : block = none → calls = []) :
    Asking calls s ((Code.mk line value buffered escaped block).emit s) := by
  have hcode : Asks [] s (emitCode value buffered escaped s) := asks_code hvalue
  cases block with
  | none =>
    rw [hnone rfl]
    exact .ok hcode
  | some b =>
    cases buffered with
    | true => exact hcode.then (hblock _)
    | false =>
      have hopened : Asks [] s ((emitCode value false escaped s).emit ["\x7b\n"]) :=
        hcode.emit_unmarked (List.forall_mem_singleton.2 (by decide))
      refine (hopened.then (hblock _)).bind fun last hlast => .ok ?_
      exact hlast.emit_unmarked (List.forall_mem_singleton.2 (by decide))

end

end

/-! ### Whole trees -/

/-- The helper that a node itself asks for. -/
def Node.request? : Node String → Option Helper
  | .tag _ _ _ spreads _ _ => if spreads.isEmpty then none else some .merge
  | .each .. => some .iterate
  | _ => none

/-- The helpers that nodes ask for, in order. -/
def requests (nodes : List (Node String)) : List Helper :=
  nodes.filterMap Node.request?

theorem requests_append (nodes nodes' : List (Node String)) :
    requests (nodes ++ nodes') = requests nodes ++ requests nodes' :=
  List.filterMap_append

mutual

/-- A visit of a node whose author writes no reserved name adds a text that calls the helpers of the
visited nodes, in the order in which they ask for them. -/
theorem Node.visit_asks : ∀ (n : Node String) {s : Emission},
    (∀ text ∈ n.authored, Unmarked text) → Asking (requests n.visited) s (n.visit s)
  | .block b, _, htexts => b.visit_asks htexts
  | .tag line name attrs spreads block code, _, htexts => by
    have hvisited : requests (Node.tag line name attrs spreads block code).visited
        = propertyCalls spreads ++ requests (insideInline code)
          ++ requests (insideOptional block) := by
      rw [List.append_assoc, ← requests_append]
      unfold propertyCalls
      cases spreads <;> rfl
    obtain ⟨hfront, hcode⟩ := List.forall_mem_append.1 htexts
    have hblock := (List.forall_mem_append.1 hfront).2
    rw [hvisited]
    exact tag_asking htexts (emitInline_asks code hcode) (visitOptional_asks block hblock)
  | .text _ value, s, htexts =>
    (asking_text (s := s.deeper) (htexts value List.mem_cons_self)).bind fun _ h => .ok h
  | .code c, s, htexts => (c.emit_asks htexts s.deeper).bind fun _ h => .ok h
  | .choice _ _ block, _, htexts => by
    obtain ⟨hsubject, hblock⟩ := List.forall_mem_cons.1 htexts
    exact choice_asking hsubject (visitOptional_asks block hblock)
  | .branch _ _ block, _, htexts => by
    obtain ⟨hlabel, hblock⟩ := List.forall_mem_cons.1 htexts
    exact branch_asking hlabel (visitOptional_asks block hblock)
  | .each _ _ _ _ block alternative, _, htexts => by
    obtain ⟨hfront, halternative⟩ := List.forall_mem_append.1 htexts
    obtain ⟨hhead, hblock⟩ := List.forall_mem_append.1 hfront
    obtain ⟨hcollection, hnames⟩ := List.forall_mem_cons.1 hhead
    obtain ⟨hvalue, hkey⟩ := List.forall_mem_cons.1 hnames
    show Asking (.iterate :: requests (insideOptional block ++ insideOptional alternative)) _ _
    rw [requests_append]
    refine each_asking hcollection hvalue hkey (visitOptional_asks block hblock)
      (visitOptional_asks alternative halternative) ?_
    rintro rfl
    rfl
  | .slot _, _, _ => slot_asking
  | .comment _ value _, _, htexts => comment_asking (htexts value List.mem_cons_self)
  | .blockComment _ _ _ false, s, _ => .ok (.refl s)
  | .blockComment _ _ block true, _, htexts => by
    obtain ⟨hvalue, hblock⟩ := List.forall_mem_cons.1 htexts
    exact blockComment_asking hvalue (visitOptional_asks block hblock)
  | .literal _ value, _, htexts => literal_asking (htexts value List.mem_cons_self)
  | .doctype .., _, _ | .mixin .., _, _ | .filter .., _, _ => .refuse

theorem Block.visit_asks : ∀ (b : Block String) {s : Emission},
    (∀ text ∈ b.authored, Unmarked text) → Asking (requests b.inside) s (b.visit s)
  | .mk _ nodes, s, htexts =>
    (visitAll_asks nodes htexts s.deeper).bind fun _ h => .ok h

theorem visitOptional_asks : ∀ (block : Option (Block String)),
    (∀ text ∈ authoredOptional block, Unmarked text) → ∀ s : Emission,
    Asking (requests (insideOptional block)) s (visitOptional block s)
  | none, _, s => .ok (.refl s)
  | some b, htexts, _ => b.visit_asks htexts

theorem visitAll_asks : ∀ (nodes : List (Node String)),
    (∀ text ∈ authoredAll nodes, Unmarked text) → ∀ s : Emission,
    Asking (requests (visitedAll nodes)) s (visitAll nodes s)
  | [], _, s => .ok (.refl s)
  | n :: rest, htexts, s => by
    obtain ⟨hfirst, hrest⟩ := List.forall_mem_append.1 htexts
    show Asking (requests (n.visited ++ visitedAll rest)) s _
    rw [requests_append]
    exact (n.visit_asks hfirst).bind fun t ht => ht.then (visitAll_asks rest hrest t)

theorem Code.emit_asks : ∀ (c : Code String), (∀ text ∈ c.authored, Unmarked text) →
    ∀ s : Emission, Asking (requests c.inside) s (c.emit s)
  | .mk _ _ _ _ block, htexts, _ => by
    obtain ⟨hvalue, hblock⟩ := List.forall_mem_cons.1 htexts
    refine code_asking hvalue (visitOptional_asks block hblock) ?_
    rintro rfl
    rfl

theorem emitInline_asks : ∀ (code : Option (Code String)),
    (∀ text ∈ authoredInline code, Unmarked text) → ∀ s : Emission,
    Asking (requests (insideInline code)) s (emitInline code s)
  | none, _, s => .ok (.refl s)
  | some c, htexts, s => c.emit_asks htexts s

end

/-- A template whose author writes no reserved name is generated with each helper at most once, in
the order in which the visited nodes ask for them first, and with exactly those helpers that the
source calls. -/
theorem generate_requests {n : Node String} {found : Intermediate}
    (htexts : ∀ text ∈ n.authored, Unmarked text) (h : n.generate = .ok found) :
    (found.helpers.map Helper.source).Nodup ∧
    found.helpers = (n.visited.filterMap Node.request?).eraseDups ∧
    ∀ helper, helper ∈ found.helpers ↔ (helper.name ++ "(").toList <:+: found.source.toList := by
  unfold Node.generate at h
  cases hvisit : n.visit {} with
  | error failure =>
    rw [hvisit] at h
    cases h
  | ok s =>
    rw [hvisit] at h
    cases h
    obtain ⟨hhelpers, text, htext, hsource⟩ := n.visit_asks htexts s hvisit
    have hfirst : s.helpers = (requests n.visited).eraseDups := hhelpers.trans (requestAll_nil _)
    have hnodup : s.helpers.Nodup := hhelpers ▸ nodup_requestAll _ List.nodup_nil
    obtain rfl : s.source.toList = text := hsource
    refine ⟨hnodup.map fun _ _ => Helper.source_injective, hfirst, fun helper => ?_⟩
    rw [← htext.mem_iff]
    show helper ∈ s.helpers ↔ _
    rw [hfirst, List.mem_eraseDups]

/-- Properties are merged in a comment and in the body of an iteration that comes first. A comment
that is not written out asks for nothing. -/
theorem generate_requests_nested :
    ∃ found, Node.generate (.block (.mk 1 [
        .blockComment 1 "" (some (.mk 1 [.each 1 "as" "a" none none none])) false,
        .blockComment 2 "*/" (some (.mk 2 [.tag 2 "b" [] ["props"] none none])) true,
        .each 3 "items" "item" none (some (.mk 3 [.tag 3 "p" [] ["item"] none none])) none]))
          = .ok found ∧
      found.helpers = [.merge, .iterate] ∧
      ∀ helper, helper ∈ found.helpers ↔
        (helper.name ++ "(").toList <:+: found.source.toList := by
  obtain ⟨found, hfound⟩ : ∃ found, Node.generate (.block (.mk 1 [
      .blockComment 1 "" (some (.mk 1 [.each 1 "as" "a" none none none])) false,
      .blockComment 2 "*/" (some (.mk 2 [.tag 2 "b" [] ["props"] none none])) true,
      .each 3 "items" "item" none (some (.mk 3 [.tag 3 "p" [] ["item"] none none])) none]))
        = .ok found := ⟨_, rfl⟩
  obtain ⟨-, hhelpers, hcalls⟩ := generate_requests (by decide +kernel) hfound
  exact ⟨found, hfound, hhelpers.trans (by decide), hcalls⟩

end Template

end Espalier
