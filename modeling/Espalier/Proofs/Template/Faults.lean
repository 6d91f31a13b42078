import Espalier.Proofs.Scan.Parts
import Espalier.Template.Generate

/-!
# Templates without a source

A visit meets the nodes of a template in order (`Node.visited`). A few of them have a fault of their
own (`Node.fault?`), and nothing else stops a visit: a node is visited with success if no fault is
met, and else the visit reports the first one. One lemma about sequencing, `Reports.bind`, carries
this through every kind of node. Main statement: `generate_reports_first`.
-/

namespace Espalier.Template

/-! ## Visited nodes -/

mutual

/-- The nodes that a visit meets below a node, in order. -/
def Node.inside : Node String → List (Node String)
  | .block b => b.inside
  | .tag _ _ _ _ block code => insideInline code ++ insideOptional block
  | .code c => c.inside
  | .choice _ _ block | .branch _ _ block => insideOptional block
  | .each _ _ _ _ block alternative => insideOptional block ++ insideOptional alternative
  | .blockComment _ _ block buffered => if buffered then insideOptional block else []
  | .text .. | .slot _ | .comment .. | .literal .. | .doctype .. | .mixin .. | .filter .. => []

/-- The nodes that a visit meets below a block, in order. -/
def Block.inside : Block String → List (Node String)
  | .mk _ nodes => visitedAll nodes

/-- The nodes that a visit meets in a block that may be missing: the block and what is below it. -/
def insideOptional : Option (Block String) → List (Node String)
  | none => []
  | some b => .block b :: b.inside

/-- The nodes that a visit meets below embedded code. -/
def Code.inside : Code String → List (Node String)
  | .mk _ _ _ _ block => insideOptional block

/-- The nodes that a visit meets below the inline code of a tag. -/
def insideInline : Option (Code String) → List (Node String)
  | none => []
  | some c => c.inside

/-- The nodes that a visit meets in a sequence of nodes, in order. -/
def visitedAll : List (Node String) → List (Node String)
  | [] => []
  | n :: rest => n :: (n.inside ++ visitedAll rest)

end

/-- The nodes that a visit meets, in order. -/
def Node.visited (n : Node String) : List (Node String) :=
  n :: n.inside

/-- What is wrong with a node itself, whatever is below it. -/
def Node.fault? : Node String → Option GenerateFault
  | .text _ value => (interpolate value).2.map (.interpolation value)
  | .choice _ _ none => some .emptyChoice
  | .doctype line _ => some (.unsupported .doctype line)
  | .mixin line _ _ _ _ => some (.unsupported .mixin line)
  | .filter line _ _ => some (.unsupported .filter line)
  | _ => none

/-- The first fault of a list of nodes. -/
def firstFault (nodes : List (Node String)) : Option GenerateFault :=
  nodes.findSome? Node.fault?

theorem firstFault_append (nodes nodes' : List (Node String)) :
    firstFault (nodes ++ nodes') = (firstFault nodes).or (firstFault nodes') :=
  List.findSome?_append

theorem firstFault_cons (n : Node String) (nodes : List (Node String)) :
    firstFault (n :: nodes) = n.fault?.or (firstFault nodes) := by
  unfold firstFault
  cases h : n.fault? with
  | none => rw [List.findSome?_cons_of_isNone (by rw [h]; rfl), Option.none_or]
  | some fault =>
    rw [List.findSome?_cons_of_isSome (by rw [h]; rfl), h, Option.some_or]

/-! ## Results of visits -/

/-- The result reports the fault, and is a success if there is none. -/
def Reports (fault? : Option GenerateFault) (r : Except GenerateFailure Emission) : Prop :=
  match fault? with
  | none => ∃ s, r = .ok s
  | some fault => ∃ helpers, r = .error ⟨fault, helpers⟩

section
variable {f f' : Option GenerateFault} {r : Except GenerateFailure Emission}

theorem Reports.ok (s : Emission) : Reports none (.ok s) :=
  ⟨s, rfl⟩

theorem Reports.refuse (s : Emission) (fault : GenerateFault) :
    Reports (some fault) (refuse s fault) :=
  ⟨s.helpers, rfl⟩

/-- A fault in the first step is reported, and else what the next one reports. -/
theorem Reports.bind {next : Emission → Except GenerateFailure Emission} (h : Reports f r)
    (hnext : ∀ s, Reports f' (next s)) : Reports (f.or f') (r >>= next) := by
  cases f with
  | none =>
    obtain ⟨s, rfl⟩ := h
    exact hnext s
  | some fault =>
    obtain ⟨helpers, rfl⟩ := h
    exact ⟨helpers, rfl⟩

/-- A step that cannot fail changes nothing about the report. -/
theorem Reports.finish {next : Emission → Emission} (h : Reports f r) :
    Reports f (r >>= fun s => pure (next s)) := by
  have := h.bind fun s => Reports.ok (next s)
  rwa [Option.or_none] at this

theorem reports_text (line : Int) (value : String) (s : Emission) :
    Reports (Node.text line value).fault? (emitText value s) := by
  show Reports ((interpolate value).2.map (.interpolation value)) (emitText value s)
  unfold emitText
  split
  case h_1 segments h => rw [h]; exact .ok _
  case h_2 segments fault h => rw [h]; exact .refuse s _

end

mutual

theorem Node.visit_reports : ∀ (n : Node String) (s : Emission),
    Reports (firstFault n.visited) (n.visit s)
  | .block b, s => b.visit_reports s
  | .tag _ _ _ _ block code, s => by
    show Reports (firstFault (insideInline code ++ insideOptional block)) _
    rw [firstFault_append]
    exact (emitInline_reports code _).bind fun s => (visitOptional_reports block s).finish
  | .text line value, s => by
    have hfault : firstFault (Node.text line value).visited = (Node.text line value).fault? := by
      rw [Node.visited, firstFault_cons]
      exact Option.or_none
    rw [hfault]
    exact (reports_text line value s.deeper).finish
  | .code c, s => (c.emit_reports s.deeper).finish
  | .choice _ _ none, _ => .refuse _ _
  | .choice _ _ (some b), _ => (b.visit_reports _).finish
  | .branch _ _ block, _ => (visitOptional_reports block _).finish
  | .each _ _ _ _ block alternative, s => by
    show Reports (firstFault (insideOptional block ++ insideOptional alternative)) _
    rw [firstFault_append]
    exact (visitOptional_reports block _).bind fun s =>
      (visitOptional_reports alternative _).finish
  | .blockComment _ _ block true, s => (visitOptional_reports block _).finish
  | .blockComment _ _ _ false, s => .ok s
  | .slot _, s | .comment _ _ _, s | .literal _ _, s => .ok _
  | .doctype _ _, s | .mixin _ _ _ _ _, s | .filter _ _ _, s => .refuse s _

theorem Block.visit_reports : ∀ (b : Block String) (s : Emission),
    Reports (firstFault b.inside) (b.visit s)
  | .mk _ nodes, s => (visitAll_reports nodes s.deeper).finish

theorem visitOptional_reports : ∀ (block : Option (Block String)) (s : Emission),
    Reports (firstFault (insideOptional block)) (visitOptional block s)
  | none, s => .ok s
  | some b, s => b.visit_reports s

theorem visitAll_reports : ∀ (nodes : List (Node String)) (s : Emission),
    Reports (firstFault (visitedAll nodes)) (visitAll nodes s)
  | [], s => .ok s
  | n :: rest, s => by
    show Reports (firstFault (n.visited ++ visitedAll rest)) _
    rw [firstFault_append]
    exact (n.visit_reports s).bind (visitAll_reports rest)

theorem Code.emit_reports : ∀ (c : Code String) (s : Emission),
    Reports (firstFault c.inside) (c.emit s)
  | .mk _ _ _ _ none, _ => .ok _
  | .mk _ _ true _ (some b), _ => b.visit_reports _
  | .mk _ _ false _ (some b), _ => (b.visit_reports _).finish

theorem emitInline_reports : ∀ (code : Option (Code String)) (s : Emission),
    Reports (firstFault (insideInline code)) (emitInline code s)
  | none, s => .ok s
  | some c, s => c.emit_reports s

end

/-! ## Generation -/

theorem firstFault_eq_none_iff {nodes : List (Node String)} :
    firstFault nodes = none ↔ ∀ m ∈ nodes, m.fault? = none :=
  List.findSome?_eq_none_iff

theorem firstFault_of_first {before after : List (Node String)} {m : Node String}
    {fault : GenerateFault} (hbefore : ∀ b ∈ before, b.fault? = none)
    (hfault : m.fault? = some fault) : firstFault (before ++ m :: after) = some fault := by
  rw [firstFault_append, firstFault_eq_none_iff.2 hbefore, Option.none_or, firstFault_cons,
    hfault, Option.some_or]

theorem generate_reports (n : Node String) :
    match firstFault n.visited with
    | none => ∃ found, n.generate = .ok found
    | some fault => ∃ helpers, n.generate = .error ⟨fault, helpers⟩ := by
  have h := n.visit_reports {}
  unfold Node.generate
  cases hfault : firstFault n.visited with
  | none =>
    rw [hfault] at h
    obtain ⟨s, hs⟩ := h
    exact ⟨_, by rw [hs]⟩
  | some fault =>
    rw [hfault] at h
    obtain ⟨helpers, hs⟩ := h
    exact ⟨helpers, by rw [hs]⟩

/-- A template has a source exactly when no visited node has a fault, and otherwise the fault of the
first visited node that has one is reported. The classes of a tag are split without fault. -/
theorem generate_reports_first (n : Node String) :
    ((∃ found, n.generate = .ok found) ↔ ∀ m ∈ n.visited, m.fault? = none) ∧
    (∀ before m after fault, n.visited = before ++ m :: after → (∀ b ∈ before, b.fault? = none) →
      m.fault? = some fault → ∃ helpers, n.generate = .error ⟨fault, helpers⟩) ∧
    ∀ value, classItems? value = .ok (classItems value) := by
  have h := generate_reports n
  refine ⟨⟨?_, ?_⟩, ?_, classItems?_eq⟩
  · rintro ⟨found, hfound⟩
    rw [← firstFault_eq_none_iff]
    cases hfault : firstFault n.visited with
    | none => rfl
    | some fault =>
      rw [hfault] at h
      obtain ⟨helpers, hhelpers⟩ := h
      cases hhelpers.symm.trans hfound
  · intro hnone
    rw [firstFault_eq_none_iff.2 hnone] at h
    exact h
  · intro before m after fault hvisited hbefore hfault
    rw [hvisited, firstFault_of_first hbefore hfault] at h
    exact h

/-- Inline code is visited before the children of its tag, so that its document type is reported. -/
theorem generate_reports_first_inline : ∃ helpers,
    Node.generate (.tag 1 "p" [] [] (some (.mk 2 [.mixin 3 "m" none none true]))
      (some (.mk 1 "a" true true (some (.mk 4 [.doctype 5 "html"])))))
        = .error ⟨.unsupported .doctype 5, helpers⟩ :=
  (generate_reports_first _).2.1
    [.tag 1 "p" [] [] (some (.mk 2 [.mixin 3 "m" none none true]))
      (some (.mk 1 "a" true true (some (.mk 4 [.doctype 5 "html"])))),
      .block (.mk 4 [.doctype 5 "html"])]
    (.doctype 5 "html")
    [.block (.mk 2 [.mixin 3 "m" none none true]), .mixin 3 "m" none none true] _ rfl
    (List.forall_mem_cons.2 ⟨rfl, List.forall_mem_singleton.2 rfl⟩) rfl

end Espalier.Template
