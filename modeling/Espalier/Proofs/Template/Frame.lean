import Espalier.Proofs.Emission.Contexts
import Espalier.Template.Generate

/-!
# What a visit adds

A visit of a node is an extension of the emission it starts from. It appends fragments, declares
temporary variables that the current function did not have and asks for helpers, and it comes back
to the depth where it began (`Addition`, `Emission.extend`). What it adds depends on the node, the
depth and the variables that are declared, and on nothing else: from two emissions that agree on
these, the same is added (`Emission.Agrees`).

Every handler is a sequence of steps of this kind, some of them on fragments that are collected
apart, so there is one lemma for each way to put steps together (`Local.bind`, `Local.level`,
`Local.captured`, `Local.inBody`). Main statement: `visit_extends`.
-/

namespace Espalier

/-! ## Additions -/

/-- What a visit adds to an emission. -/
structure Addition where
  fragments : List String := []
  declared : List String := []
  /-- The helpers that are asked for, in order. -/
  uses : List Helper := []

/-- One addition after another. -/
def Addition.append (a b : Addition) : Addition :=
  ⟨a.fragments ++ b.fragments, a.declared ++ b.declared, a.uses ++ b.uses⟩

/-- The helpers after some have been asked for. -/
def requestAll (uses helpers : List Helper) : List Helper :=
  uses.foldl (fun helpers h => h.request helpers) helpers

theorem requestAll_append (uses uses' helpers : List Helper) :
    requestAll (uses ++ uses') helpers = requestAll uses' (requestAll uses helpers) :=
  List.foldl_append

/-- Helpers are only added behind those that are there. -/
theorem prefix_requestAll (uses helpers : List Helper) : helpers <+: requestAll uses helpers := by
  induction uses generalizing helpers with
  | nil => exact List.prefix_refl helpers
  | cons h uses ih =>
    have hrequest : helpers <+: h.request helpers := by
      unfold Helper.request
      split
      · exact List.prefix_refl helpers
      · exact List.prefix_append helpers [h]
    exact hrequest.trans (ih (h.request helpers))

namespace Emission

/-- The emission with an addition. -/
def extend (s : Emission) (a : Addition) : Emission where
  fragments := s.fragments ++ a.fragments.toArray
  depth := s.depth
  declared := s.declared ++ a.declared
  helpers := requestAll a.uses s.helpers

theorem extend_nil (s : Emission) : s.extend {} = s := by
  simp [extend, requestAll]

theorem extend_append (s : Emission) (a b : Addition) :
    s.extend (a.append b) = (s.extend a).extend b := by
  simp [extend, Addition.append, requestAll_append]

/-- The emissions are at the same depth, and the current function has the same variables. -/
structure Agrees (s t : Emission) : Prop where
  depth : t.depth = s.depth
  declared : ∀ name, name ∈ t.declared ↔ name ∈ s.declared

namespace Agrees

variable {s t : Emission}

theorem refl (s : Emission) : Agrees s s := ⟨rfl, fun _ => Iff.rfl⟩

theorem extend (h : Agrees s t) (a : Addition) : Agrees (s.extend a) (t.extend a) where
  depth := h.depth
  declared name := by
    rw [Emission.extend, Emission.extend, List.mem_append, List.mem_append, h.declared]

theorem deeper (h : Agrees s t) : Agrees s.deeper t.deeper :=
  ⟨congrArg (· + 1) h.depth, h.declared⟩

theorem capture (h : Agrees s t) : Agrees s.capture t.capture := ⟨h.depth, h.declared⟩

end Agrees

theorem shallower_extend_deeper (s : Emission) (a : Addition) :
    (s.deeper.extend a).shallower = s.extend a := by
  simp [shallower, extend, deeper]

/-- The source of fragments that were collected apart. -/
theorem source_extend_capture (s : Emission) (a : Addition) :
    (s.capture.extend a).source = String.join a.fragments := by
  simp [source, extend, capture]

end Emission

namespace Template

/-! ## Steps -/

/-- From every emission that agrees with `s` the step succeeds with this addition, and the variables
in it are new. -/
structure Extends (step : Emission → Except GenerateFailure Emission) (s : Emission)
    (a : Addition) : Prop where
  fresh : ∀ name ∈ a.declared, name ∉ s.declared
  result : ∀ t, s.Agrees t → step t = .ok (t.extend a)

/-- Where the step succeeds, it makes an addition that depends only on the depth and on the
variables that are declared. -/
def Local (step : Emission → Except GenerateFailure Emission) : Prop :=
  ∀ s s', step s = .ok s' → ∃ a, Extends step s a

section
variable {step next : Emission → Except GenerateFailure Emission}

theorem Extends.eq_extend {s s' : Emission} {a : Addition} (h : Extends step s a)
    (hs : step s = .ok s') : s' = s.extend a :=
  Except.ok.inj (hs.symm.trans (h.result s (.refl s)))

/-- A step that always makes the same addition, without variables. -/
theorem Local.of_eq {a : Addition} (hnone : a.declared = [])
    (h : ∀ t, step t = .ok (t.extend a)) : Local step :=
  fun _ _ _ => ⟨a, by rw [hnone]; exact nofun, fun t _ => h t⟩

theorem Local.congr (h : Local step) (heq : ∀ s, next s = step s) : Local next :=
  (funext heq : next = step) ▸ h

theorem Local.pure : Local fun s => .ok s :=
  .of_eq rfl fun t => by rw [t.extend_nil]

theorem Local.refuse (fault : GenerateFault) : Local fun s => refuse s fault := nofun

/-- A step after an addition. -/
theorem Local.extended (h : Local next) {s s' : Emission} {a : Addition}
    (hfresh : ∀ name ∈ a.declared, name ∉ s.declared) (hs : next (s.extend a) = .ok s') :
    ∃ b, Extends (fun t => next (t.extend a)) s b := by
  obtain ⟨b, hb⟩ := h _ s' hs
  refine ⟨a.append b, List.forall_mem_append.2 ⟨hfresh, fun name hname hmem => ?_⟩, fun t ht => ?_⟩
  · exact hb.fresh name hname (List.mem_append_left _ hmem)
  · rw [t.extend_append]
    exact hb.result _ (ht.extend a)

/-- A step that works on a view of the emission, and what is done with its result. -/
theorem Local.within {view : Emission → Emission}
    {after : Emission → Emission → Except GenerateFailure Emission} (h : Local step)
    (hview : ∀ {s t : Emission}, s.Agrees t → (view s).Agrees (view t))
    (hafter : ∀ s s' a, (∀ name ∈ a.declared, name ∉ (view s).declared) →
      after s ((view s).extend a) = .ok s' →
      ∃ b, Extends (fun t => after t ((view t).extend a)) s b) :
    Local fun s => step (view s) >>= after s := by
  intro s s' hrun
  dsimp only at hrun
  cases hs : step (view s) with
  | error failure => rw [hs] at hrun; cases hrun
  | ok inner =>
    rw [hs] at hrun
    obtain ⟨a, ha⟩ := h _ inner hs
    obtain rfl := ha.eq_extend hs
    obtain ⟨b, hb⟩ := hafter s s' a ha.fresh hrun
    refine ⟨b, hb.fresh, fun t ht => ?_⟩
    rw [ha.result _ (hview ht)]
    exact hb.result t ht

/-- One step after another. -/
theorem Local.bind (h : Local step) (hnext : Local next) : Local fun s => step s >>= next := by
  have hview : ∀ {s t : Emission}, s.Agrees t → (id s).Agrees (id t) := fun ht => ht
  exact h.within hview fun _ _ _ hfresh hs => hnext.extended hfresh hs

/-- A step one level deeper. -/
theorem Local.level (h : Local step) :
    Local fun s => step s.deeper >>= fun s => .ok s.shallower := by
  refine h.within .deeper fun s _ a hfresh _ => ⟨a, hfresh, fun t _ => ?_⟩
  rw [t.shallower_extend_deeper]

/-- A step whose fragments are collected apart, and what is done with their source. -/
theorem Local.captured {use : String → Emission → Except GenerateFailure Emission} (h : Local step)
    (huse : ∀ source, Local (use source)) : Local fun s =>
      step s.capture >>= fun inner => use inner.source (inner.release s.fragments) := by
  have hafter : ∀ (a : Addition) (t : Emission),
      use (t.capture.extend a).source ((t.capture.extend a).release t.fragments)
        = use (String.join a.fragments) (t.extend { a with fragments := [] }) := by
    intro a t
    rw [t.source_extend_capture]
    simp [Emission.release, Emission.extend, Emission.capture]
  refine h.within .capture fun s s' a hfresh hs => ?_
  rw [hafter] at hs
  simp only [hafter]
  exact (huse _).extended hfresh hs

/-- A step for the body of a function, whose variables are its own. -/
theorem Local.inBody {use : String → Emission → Except GenerateFailure Emission} (h : Local step)
    (huse : ∀ source, Local (use source)) : Local fun s =>
      step (enterBody s) >>= fun inner => use (leaveBody s inner).2 (leaveBody s inner).1 := by
  have hafter : ∀ (a : Addition) (t : Emission),
      use (leaveBody t ((enterBody t).extend a)).2 (leaveBody t ((enterBody t).extend a)).1
        = use (String.join a.fragments) (t.extend { uses := a.uses }) := by
    intro a t
    simp [leaveBody, enterBody, Emission.release, Emission.leaveFunction, Emission.extend,
      Emission.capture, Emission.enterFunction, Emission.source]
  refine h.within (fun hagrees => ⟨hagrees.depth, fun _ => Iff.rfl⟩) fun s s' a _ hs => ?_
  rw [hafter] at hs
  simp only [hafter]
  exact (huse _).extended (fun _ hmem => absurd hmem List.not_mem_nil) hs

/-! ## Handlers -/

/-- Fragments that depend on the depth only. -/
theorem local_emit (fragments : Int → List String) :
    Local fun s => .ok (s.emit (fragments s.depth)) := by
  refine fun s _ _ => ⟨{ fragments := fragments s.depth }, nofun, fun t ht => ?_⟩
  simp [Emission.emit, Emission.extend, requestAll, ht.depth]

theorem local_text (value : String) : Local (emitText value) := by
  unfold emitText
  split
  case h_1 segments _ => exact local_emit fun _ => _
  case h_2 fault _ => exact .refuse _

theorem local_element (name : String) (attrs : List (Attribute String)) (spreads : List String) :
    Local fun s => .ok (emitElement name attrs spreads s) := by
  have hprops : ∀ helpers, propertiesOf attrs spreads helpers
      = ((propertiesOf attrs spreads []).1,
        requestAll (if spreads.isEmpty then [] else [.merge]) helpers) := by
    intro helpers
    unfold propertiesOf
    split <;> rfl
  refine .of_eq (a := ⟨[Marker.call Marker.element [elementType name,
    (propertiesOf attrs spreads []).1], ";\n\x7b\n"], [],
    if spreads.isEmpty then [] else [.merge]⟩) rfl fun t => ?_
  rw [emitElement, hprops t.helpers]
  simp [Emission.emit, Emission.extend]

theorem local_code (value : String) (buffered escaped : Bool) :
    Local fun s => .ok (emitCode value buffered escaped s) := by
  unfold emitCode
  split
  · exact local_emit fun _ => _
  · exact local_emit fun _ => _

theorem local_use (h : Helper) : Local fun s => .ok (s.use h) := by
  refine .of_eq (a := { uses := [h] }) rfl fun t => ?_
  simp [Emission.use, Emission.extend, requestAll]

/-- Whether the variable of a depth is declared or set depends on the variables that are there. -/
theorem local_temporary (init : Option String) :
    Local fun s => .ok (s.temporary s.depth init).1 := by
  intro s s' _
  by_cases hmem : Marker.temporary s.depth ∈ s.declared
  · have hset : ∀ t, s.Agrees t → (t.temporary t.depth init).1 = t.extend
        { fragments := Emission.assignment s.depth init } := by
      intro t ht
      rw [ht.depth, Emission.temporary_fst, if_pos ((ht.declared _).2 hmem)]
      simp [Emission.emit, Emission.extend, requestAll]
    exact ⟨_, fun _ hnone => absurd hnone List.not_mem_nil,
      fun t ht => congrArg Except.ok (hset t ht)⟩
  · have hdeclared : ∀ t, s.Agrees t → (t.temporary t.depth init).1 = t.extend
        { fragments := [Emission.declaration s.depth init]
          declared := [Marker.temporary s.depth] } := by
      intro t ht
      rw [ht.depth, Emission.temporary_fst, if_neg (mt (ht.declared _).1 hmem)]
      simp [Emission.emit, Emission.extend, requestAll]
    refine ⟨_, ?_, fun t ht => congrArg Except.ok (hdeclared t ht)⟩
    exact List.forall_mem_singleton.2 hmem

/-- The subject of a choice, and the opening of its switch. -/
theorem local_subject (subject : String) : Local fun s =>
    .ok ((s.temporary s.depth (some subject)).1.emit
      ["switch(" ++ (s.temporary s.depth (some subject)).2 ++ ")\x7b\n"]) := by
  refine ((local_temporary (some subject)).bind
    (local_emit fun depth => ["switch(" ++ Marker.temporary depth ++ ")\x7b\n"])).congr fun s => ?_
  show _ = Except.ok (Emission.emit _ _)
  rw [s.depth_temporary, s.temporary_snd]

end

mutual

theorem Node.visit_local : ∀ n : Node String, Local n.visit
  | .block b => b.visit_local
  | .tag _ name attrs spreads block code => by
    refine ((local_element name attrs spreads).bind <| (emitInline_local code).bind <|
      (visitOptional_local block).bind <| local_emit fun _ => ["\x7d\n"]).level.congr fun s => ?_
    simp only [Node.visit, bind_assoc]
    rfl
  | .text _ value => (local_text value).level
  | .code c => c.emit_local.level
  | .choice _ subject none => ((local_subject subject).bind (.refuse .emptyChoice)).level
  | .choice _ subject (some b) => by
    refine ((local_subject subject).bind <| b.visit_local.bind <|
      local_emit fun _ => ["\x7d\n"]).level.congr fun s => ?_
    simp only [Node.visit, bind_assoc]
    rfl
  | .branch _ label block => by
    refine ((local_emit fun _ => [if label = "default" then "default:\n" else
      "case " ++ label ++ ":\n"]).bind <| (visitOptional_local block).bind <|
      local_emit fun _ => ["break;\n"]).level.congr fun s => ?_
    simp only [Node.visit, bind_assoc]
    rfl
  | .each _ collection value key block alternative => by
    refine ((local_use .iterate).bind <| (visitOptional_local block).inBody fun body =>
      (visitOptional_local alternative).inBody fun other => local_emit fun _ =>
        [Marker.iterate ++ "(" ++ collection ++ ",function(" ++ eachParams value key ++ ")\x7b\n"
          ++ body ++ "\x7d" ++ (if alternative.isSome then ",function()\x7b\n" ++ other ++ "\x7d"
          else "") ++ ")", ";\n"]).level.congr fun s => ?_
    simp only [Node.visit, bind_assoc]
    rfl
  | .slot _ => (local_emit fun _ => _).level
  | .comment _ _ true => local_emit fun _ => _
  | .comment _ _ false => .pure
  | .blockComment _ value block true => by
    refine (((local_emit fun _ => ["/*", value, "\n"]).bind (visitOptional_local block)).captured
      fun source => local_emit fun _ =>
        [String.ofList (breakCommentEnds source.toList), "*/", "\n"]).level.congr fun s => ?_
    simp only [Node.visit, bind_assoc]
    rfl
  | .blockComment _ _ _ false => .pure
  | .literal _ _ => local_emit fun _ => _
  | .doctype _ _ | .mixin _ _ _ _ _ | .filter _ _ _ => .refuse _

theorem Block.visit_local : ∀ b : Block String, Local b.visit
  | .mk _ nodes => (visitAll_local nodes).level

theorem visitOptional_local : ∀ block : Option (Block String), Local (visitOptional block)
  | none => .pure
  | some b => b.visit_local

theorem visitAll_local : ∀ nodes : List (Node String), Local (visitAll nodes)
  | [] => .pure
  | n :: rest => n.visit_local.bind (visitAll_local rest)

theorem Code.emit_local : ∀ c : Code String, Local c.emit
  | .mk _ value buffered escaped none => local_code value buffered escaped
  | .mk _ value true escaped (some b) => (local_code value true escaped).bind b.visit_local
  | .mk _ value false escaped (some b) =>
    (local_code value false escaped).bind <| (local_emit fun _ => ["\x7b\n"]).bind <|
      b.visit_local.bind <| local_emit fun _ => ["\x7d\n"]

theorem emitInline_local : ∀ code : Option (Code String), Local (emitInline code)
  | none => .pure
  | some c => c.emit_local

end

/-- A visit comes back to its depth, keeps the fragments, variables and helpers that are there and
adds to them. From every emission at the same depth with the same variables, whatever its fragments
and helpers, the same node adds the same fragments and variables and asks for the same helpers. -/
theorem visit_extends {n : Node String} {s s' : Emission} (h : n.visit s = .ok s') :
    s'.depth = s.depth ∧ s.helpers <+: s'.helpers ∧
    ∃ fragments names uses,
      s'.fragments = s.fragments ++ fragments ∧ s'.declared = s.declared ++ names ∧
      s'.helpers = requestAll uses s.helpers ∧ (∀ name ∈ names, name ∉ s.declared) ∧
      ∀ t, s.Agrees t → ∃ t', n.visit t = .ok t' ∧ t'.fragments = t.fragments ++ fragments ∧
        t'.declared = t.declared ++ names ∧ t'.helpers = requestAll uses t.helpers := by
  obtain ⟨a, ha⟩ := n.visit_local s s' h
  obtain rfl := ha.eq_extend h
  refine ⟨rfl, prefix_requestAll a.uses s.helpers, a.fragments.toArray, a.declared, a.uses, rfl,
    rfl, rfl, ha.fresh, fun t ht => ?_⟩
  exact ⟨t.extend a, ha.result t ht, rfl, rfl, rfl⟩

/-- The choice in the function of an iteration declares the variable that the choice after the
iteration only sets, whatever has been emitted before. -/
theorem visit_extends_each :
    let choice := fun subject => Node.choice 1 subject (some (.mk 1 []))
    let n := Node.block (.mk 1 [.each 1 "xs" "x" none (some (.mk 1 [choice "x"])) none, choice "y"])
    let s : Emission := { depth := 2, declared := [Marker.temporary 4] }
    let t : Emission := { s with fragments := #["a;\n"], helpers := [.merge] }
    ∃ s' fragments, n.visit s = .ok s' ∧ s'.fragments = s.fragments ++ fragments ∧
      ∃ t', n.visit t = .ok t' ∧ t'.fragments = t.fragments ++ fragments := by
  intro choice n s t
  obtain ⟨s', hs⟩ : ∃ s', n.visit s = .ok s' := ⟨_, rfl⟩
  obtain ⟨-, -, fragments, _, _, hfragments, -, -, -, hagrees⟩ := visit_extends hs
  obtain ⟨t', ht, htfragments, -, -⟩ := hagrees t ⟨rfl, fun _ => Iff.rfl⟩
  exact ⟨s', fragments, hs, hfragments, t', ht, htfragments⟩

end Template

end Espalier
