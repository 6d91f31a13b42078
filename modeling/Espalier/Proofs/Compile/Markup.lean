import Espalier.Proofs.Compile.History
import Espalier.Proofs.Compress.Merging
import Espalier.Proofs.Render.Printed
import Espalier.Proofs.Template.Generated

/-!
# Markup compiles in every mode

Markup is a template of elements of the host without attributes and of plain text. Main statement:
`compile_markup`, by which markup compiles whatever the options, every output is a program, the
finished one or its compression, and this program applies the factory once for every element.

The statements of a finished or compressed program are a `Filling`; the module shows that markup is
resolved to one, and that compression keeps it one.
-/

namespace Espalier.Template

open Espalier.Script Espalier.Text Espalier.Render

/-! ## Markup -/

mutual

/-- The node is an element of the host without attributes, plain text, or a block of such nodes. -/
def Node.isMarkup : Node String → Bool
  | .block b => b.isMarkup
  | .tag _ name attrs spreads block code =>
    isHostName name && attrs.isEmpty && spreads.isEmpty && code.isNone && markupOptional block
  | .text _ value => !opensInterpolation value.toList
  | _ => false

/-- All nodes of the block are markup. -/
def Block.isMarkup : Block String → Bool
  | .mk _ nodes => markupAll nodes

/-- The block is markup, if there is one. -/
def markupOptional : Option (Block String) → Bool
  | none => true
  | some b => b.isMarkup

/-- All nodes are markup. -/
def markupAll : List (Node String) → Bool
  | [] => true
  | n :: rest => n.isMarkup && markupAll rest

end

mutual

/-- The number of elements in markup. -/
def Node.tagCount : Node String → Nat
  | .block b => b.tagCount
  | .tag _ _ _ _ block _ => tagCountOptional block + 1
  | _ => 0

/-- The number of elements in a block. -/
def Block.tagCount : Block String → Nat
  | .mk _ nodes => tagCountAll nodes

/-- The number of elements in a block, if there is one. -/
def tagCountOptional : Option (Block String) → Nat
  | none => 0
  | some b => b.tagCount

/-- The number of elements among nodes. -/
def tagCountAll : List (Node String) → Nat
  | [] => 0
  | n :: rest => n.tagCount + tagCountAll rest

end

/-- What the element of a markup tag is made of. -/
theorem isMarkup_tag {line : Int} {name : String} {attrs : List (Attribute String)}
    {spreads : List String} {block : Option (Block String)} {code : Option (Code String)}
    (h : (Node.tag line name attrs spreads block code).isMarkup = true) :
    isHostName name = true ∧ attrs = [] ∧ spreads = [] ∧ code = none ∧
      markupOptional block = true := by
  simp only [Node.isMarkup, Bool.and_eq_true, List.isEmpty_iff, Option.isNone_iff_eq_none] at h
  exact ⟨h.1.1.1.1, h.1.1.1.2, h.1.1.2, h.1.2, h.2⟩

mutual

/-- Markup is structural. -/
theorem Node.structural_of_isMarkup : ∀ {n : Node String}, n.isMarkup = true →
    n.structural = true
  | .block b, h => Block.structural_of_isMarkup (b := b) h
  | .tag _ name attrs spreads block code, h => by
    obtain ⟨hname, rfl, rfl, rfl, hblock⟩ := isMarkup_tag h
    simp [Node.structural, structuralInline, hname, structuralOptional_of_markup hblock]
  | .text _ _, h => h

theorem Block.structural_of_isMarkup : ∀ {b : Block String}, b.isMarkup = true →
    b.structural = true
  | .mk _ _, h => structuralAll_of_markup h

theorem structuralOptional_of_markup : ∀ {block : Option (Block String)},
    markupOptional block = true → structuralOptional block = true
  | none, _ => rfl
  | some _, h => Block.structural_of_isMarkup h

theorem structuralAll_of_markup : ∀ {nodes : List (Node String)}, markupAll nodes = true →
    structuralAll nodes = true
  | [], _ => rfl
  | n :: rest, h => by
    rw [markupAll, Bool.and_eq_true] at h
    rw [structuralAll, Node.structural_of_isMarkup h.1, structuralAll_of_markup h.2]
    rfl

end

/-! ## Helpers -/

/-- A sequence of two steps succeeds when both do. -/
theorem exists_of_bind_eq_ok {ε α β : Type} {x : Except ε α} {f : α → Except ε β} {b : β}
    (h : x >>= f = .ok b) : ∃ a, x = .ok a ∧ f a = .ok b := by
  cases x with
  | error fault => cases h
  | ok a => exact ⟨a, rfl, h⟩

mutual

/-- The source of markup calls no helpers. -/
theorem Node.helpers_visit : ∀ {n : Node String} {s s' : Emission}, n.isMarkup = true →
    n.visit s = .ok s' → s'.helpers = s.helpers
  | .block b, _, _, h, hvisit => Block.helpers_visit (b := b) h hvisit
  | .tag _ name attrs spreads block code, s, s', h, hvisit => by
    obtain ⟨-, rfl, rfl, rfl, hblock⟩ := isMarkup_tag h
    rw [Node.visit] at hvisit
    obtain ⟨inline, hinline, hrest⟩ := exists_of_bind_eq_ok hvisit
    obtain ⟨inner, hinner, hlast⟩ := exists_of_bind_eq_ok hrest
    cases hinline
    cases hlast
    exact (helpers_visitOptional hblock hinner :)
  | .text _ value, s, s', h, hvisit => by
    have hplain : opensInterpolation value.toList = false := by simpa [Node.isMarkup] using h
    rw [Node.visit, emitText, interpolate_of_plain hplain] at hvisit
    cases hvisit
    rfl

theorem Block.helpers_visit : ∀ {b : Block String} {s s' : Emission}, b.isMarkup = true →
    b.visit s = .ok s' → s'.helpers = s.helpers
  | .mk _ nodes, s, s', h, hvisit => by
    rw [Block.visit] at hvisit
    obtain ⟨inner, hinner, hvisit⟩ := exists_of_bind_eq_ok hvisit
    cases hvisit
    exact (helpers_visitAll h hinner :)

theorem helpers_visitOptional : ∀ {block : Option (Block String)} {s s' : Emission},
    markupOptional block = true → visitOptional block s = .ok s' → s'.helpers = s.helpers
  | none, _, _, _, hvisit => by
    cases hvisit
    rfl
  | some b, _, _, h, hvisit => Block.helpers_visit (b := b) h hvisit

theorem helpers_visitAll : ∀ {nodes : List (Node String)} {s s' : Emission},
    markupAll nodes = true → visitAll nodes s = .ok s' → s'.helpers = s.helpers
  | [], _, _, _, hvisit => by
    cases hvisit
    rfl
  | n :: rest, s, s', h, hvisit => by
    rw [markupAll, Bool.and_eq_true] at h
    rw [visitAll] at hvisit
    obtain ⟨inner, hfirst, hrest⟩ := exists_of_bind_eq_ok hvisit
    exact (helpers_visitAll h.2 hrest).trans (Node.helpers_visit h.1 hfirst)

end

/-! ## Resolving -/

/-- Statements are resolved to others on their own, whatever follows them. -/
def Resolves (target : String) (n : Nat) (ss out : List Stmt) (m : Nat) : Prop :=
  ∀ {rest out' : List Stmt} {k : Nat}, (resolveAll {} target rest).run m = .ok (out', k) →
    (resolveAll {} target (ss ++ rest)).run n = .ok (out ++ out', k)

theorem Resolves.append {target : String} {n m k : Nat} {a b out out' : List Stmt}
    (ha : Resolves target n a out m) (hb : Resolves target m b out' k) :
    Resolves target n (a ++ b) (out ++ out') k := by
  intro rest after l hrest
  rw [List.append_assoc, List.append_assoc]
  exact ha (hb hrest)

/-- What statements are resolved to, if nothing follows. -/
theorem Resolves.run {target : String} {n m : Nat} {ss out : List Stmt}
    (h : Resolves target n ss out m) : (resolveAll {} target ss).run n = .ok (out, m) := by
  have hend : (resolveAll {} target []).run m = .ok ([], m) := by
    rw [resolveAll_nil]
    rfl
  have hall := h hend
  rwa [List.append_nil, List.append_nil] at hall

/-- A statement that outputs plain text. -/
theorem resolves_output (target : String) (n : Nat) (value : Expr) :
    Resolves target n [outputStmt Marker.text value] [push target value] n := by
  intro rest out k hrest
  have hplain : elementCall? (outputStmt Marker.text value) = none :=
    elementCall?_of_ne _ (by decide)
  rw [List.singleton_append, resolveAll_cons _ _ _ _ (.inl hplain), outputStmt, resolveStmt_text]
  exact run_bind_eq_ok.2 ⟨_, n, rfl, run_bind_eq_ok.2 ⟨out, k, hrest, rfl⟩⟩

/-- An element and the block of its children. -/
theorem resolves_element (target name : String) {n m : Nat} {body inner : List Stmt}
    (h : Resolves ("$element" ++ toString n) (n + 1) body inner m) :
    Resolves target n [elementStmt name, .block body]
      [({} : Settings).elementBlock target ("$element" ++ toString n)
        [.string (quote name), .null] inner] m := by
  intro rest out k hrest
  show (resolveAll {} target (elementStmt name :: .block body :: rest)).run n = _
  rw [elementStmt, resolveAll_element_block]
  exact run_bind_eq_ok.2 ⟨_, n + 1, rfl, run_bind_eq_ok.2 ⟨inner, m, h.run,
    run_bind_eq_ok.2 ⟨out, k, hrest, rfl⟩⟩⟩

/-- Statements are resolved to a filling of the target array. -/
def Fills (target : String) (n : Nat) (ss : List Stmt) (count : Nat) : Prop :=
  ∃ out m, Resolves target n ss out m ∧ Filling declare target out count

theorem Fills.nil (target : String) (n : Nat) : Fills target n [] 0 :=
  ⟨[], n, fun h => h, .nil target⟩

mutual

/-- Markup is resolved to a filling with as many elements. -/
theorem Node.fills : ∀ {n : Node String} (depth : Int) (declared : List String), n.isMarkup = true →
    ∀ (target : String) (k : Nat), Fills target k (n.translate depth declared).1 n.tagCount
  | .block b, depth, declared, h, target, k => b.fills depth declared h target k
  | .tag _ name _ _ block code, depth, declared, h, target, k => by
    obtain ⟨-, rfl, rfl, rfl, hblock⟩ := isMarkup_tag h
    obtain ⟨inner, m, hresolves, hfilling⟩ :=
      fillsOptional (depth + 1) declared hblock ("$element" ++ toString k) (k + 1)
    refine ⟨_, m, resolves_element target name hresolves, ?_⟩
    exact .element name (isArray_element k) hfilling (.nil target)
  | .text _ value, depth, declared, h, target, k => by
    rw [Node.translate]
    by_cases hempty : value = ""
    · rw [if_pos hempty]
      exact .nil target k
    · rw [if_neg hempty]
      exact ⟨_, k, resolves_output target k _, .text value (.nil target)⟩

theorem Block.fills : ∀ (b : Block String) (depth : Int) (declared : List String),
    b.isMarkup = true → ∀ (target : String) (k : Nat),
    Fills target k (b.translate depth declared).1 b.tagCount
  | .mk _ _, depth, declared, h, target, k => fillsAll (depth + 1) declared h target k

theorem fillsOptional : ∀ {block : Option (Block String)} (depth : Int) (declared : List String),
    markupOptional block = true → ∀ (target : String) (k : Nat),
    Fills target k (translateOptional depth declared block).1 (tagCountOptional block)
  | none, _, _, _, target, k => .nil target k
  | some b, depth, declared, h, target, k => b.fills depth declared h target k

theorem fillsAll : ∀ {nodes : List (Node String)} (depth : Int) (declared : List String),
    markupAll nodes = true → ∀ (target : String) (k : Nat),
    Fills target k (translateAll depth declared nodes).1 (tagCountAll nodes)
  | [], _, _, _, target, k => .nil target k
  | n :: rest, depth, declared, h, target, k => by
    rw [markupAll, Bool.and_eq_true] at h
    obtain ⟨first, m, hfirst, hfilling⟩ := Node.fills depth declared h.1 target k
    obtain ⟨others, l, hothers, hmore⟩ :=
      fillsAll depth (n.translate depth declared).2 h.2 target m
    exact ⟨_, l, hfirst.append hothers, hfilling.append hmore⟩

end

end Espalier.Template

namespace Espalier.Render

open Espalier.Script Espalier.Text

/-! ## Compression -/

theorem undeclaredAll_append (a b : List Stmt) :
    undeclaredAll (a ++ b) = undeclaredAll a ++ undeclaredAll b := by
  induction a with
  | nil => rfl
  | cons s a ih => rw [List.cons_append, undeclaredAll, undeclaredAll, ih, List.append_assoc]

theorem hoistedStmts_append (a b : List Stmt) :
    hoistedStmts (a ++ b) = hoistedStmts a ++ hoistedStmts b := by
  induction a with
  | nil => rfl
  | cons s a ih => rw [List.cons_append, hoistedStmts, hoistedStmts, ih, List.cons_append]

section
variable {target : String} {ss : List Stmt} {count : Nat}

/-- A filling that declares its arrays becomes one that assigns them. -/
theorem Filling.undeclared (h : Filling declare target ss count) :
    Filling assigned target (undeclaredAll ss) count := by
  induction h with
  | nil => exact .nil _
  | text value _ ih => exact .text value ih
  | element name harray _ _ ihchildren ih =>
    have hblock := Filling.element name harray ihchildren ih
    rw [undeclaredAll, Stmt.undeclared, List.cons_append, undeclaredAll, undeclaredAll_append]
    exact hblock

/-- There are no functions in a filling. -/
theorem Filling.hoisted (h : Filling declare target ss count) : hoistedStmts ss = ss := by
  induction h with
  | nil => rfl
  | text value _ ih =>
    rw [hoistedStmts, ih]
    rfl
  | element name harray _ _ ihchildren ih =>
    rw [hoistedStmts, Stmt.hoisted, List.cons_append, hoistedStmts, hoistedStmts_append, ihchildren,
      ih]
    rfl

/-- A filling declares nothing but arrays. -/
theorem Filling.declared (h : Filling declare target ss count) :
    ∀ bindings ∈ varStatementsAll ss, ∀ b ∈ bindings, IsArray b.name := by
  induction h with
  | nil => exact nofun
  | text value _ ih => exact ih
  | element name harray _ _ ihchildren ih =>
    rw [varStatementsAll, Stmt.varStatements, List.cons_append, varStatementsAll,
      varStatementsAll_append]
    simp only [List.forall_mem_append]
    refine ⟨⟨?_, ihchildren, ?_⟩, ih⟩
    · rintro bindings hbindings b hb
      obtain rfl := List.mem_singleton.1 hbindings
      obtain rfl := List.mem_singleton.1 hb
      exact harray
    · exact nofun

end

/-! ## Finished programs -/

/-- The program is read back from what is printed, applies the factory `count` times and holds no
reserved name. -/
structure Finished (program : Program) (count : Nat) : Prop where
  reads : ∀ {style : Style}, style.Faithful →
    parse (style.print (programPieces program)) = some program
  applications : (stmtCallees program).countP ({} : Settings).applies = count
  unreserved : ∀ name ∈ stmtNames program, Unreserved name

/-- A function body that collects children at the top: the array, what fills it and the result. -/
def collected (init : String → Expr → Stmt) (ss : List Stmt) : List Stmt :=
  init "$children0" (.array []) :: ss ++ [.ret (some (soleOrAll "$children0"))]

section
variable {ss : List Stmt} {count : Nat}

theorem isArray_root : IsArray "$children0" := isArray_children 0

section
variable {init : String → Expr → Stmt}

theorem Filling.printed_collected (h : Filling init "$children0" ss count)
    (hinit : ∀ {id : String} {value : Expr}, PlainName id → PrintedArg value →
      Printed (init id value)) : ∀ s ∈ collected init ss, Printed s := by
  refine List.forall_mem_cons.2 ⟨hinit isArray_root.name printedArg_empty, ?_⟩
  refine List.forall_mem_append.2 ⟨h.printed hinit isArray_root, ?_⟩
  exact List.forall_mem_singleton.2 printed_return

theorem Filling.callees_collected (h : Filling init "$children0" ss count)
    (hinit : ∀ id value, (init id value).callees = value.callees) :
    (stmtCallees (collected init ss)).countP ({} : Settings).applies = count := by
  rw [collected, List.cons_append, stmtCallees, stmtCallees_append, List.countP_append,
    List.countP_append, h.applications hinit, hinit]
  exact Nat.zero_add count

theorem Filling.names_collected (h : Filling init "$children0" ss count)
    (hinit : ∀ id value, (init id value).names = id :: value.names) :
    ∀ name ∈ stmtNames (collected init ss), Unreserved name := by
  rw [collected, List.cons_append, stmtNames, stmtNames_append, hinit]
  refine List.forall_mem_append.2 ⟨by decide, ?_⟩
  exact List.forall_mem_append.2 ⟨h.unreserved hinit unreserved_default isArray_root, by decide⟩

end

theorem Finished.of_body {body : List Stmt} (hprinted : PrintedAll body)
    (hcalls : (stmtCallees body).countP ({} : Settings).applies = count)
    (hnames : ∀ name ∈ stmtNames body, Unreserved name) :
    Finished [.func "render" ["block"] body] count where
  reads hstyle := parse_print_function hprinted hstyle
  applications := by
    rw [stmtCallees, Stmt.callees, stmtCallees, List.append_nil, hcalls]
  unreserved := by
    rw [stmtNames, Stmt.names, stmtNames, List.append_nil]
    exact List.forall_mem_cons.2 ⟨by decide, List.forall_mem_cons.2 ⟨by decide, hnames⟩⟩

/-- The finished program of markup. -/
theorem Filling.finished (h : Filling declare "$children0" ss count) :
    Finished [({} : Settings).renderFunction "$children0" ss] count :=
  .of_body (.of_forall (h.printed_collected printed_declare)) (h.callees_collected fun _ _ => by
    simp [declare, Stmt.callees, bindingCallees, Binding.callees])
    (h.names_collected names_declare)

/-- Merging changes only the body of the render function. -/
theorem Filling.hoist_eq (h : Filling declare "$children0" ss count) :
    hoist [({} : Settings).renderFunction "$children0" ss]
      = [.func "render" ["block"] (mergeDeclarations (collected declare ss))] := by
  have hbody : hoistedStmts (collected declare ss) = collected declare ss := by
    rw [collected, List.cons_append, hoistedStmts, hoistedStmts_append, h.hoisted]
    rfl
  have hfunction : hoistedStmts [({} : Settings).renderFunction "$children0" ss]
      = [.func "render" ["block"] (mergeDeclarations (hoistedStmts (collected declare ss)))] := rfl
  rw [hoist, hfunction, hbody]
  rfl

/-- The merged declaration names arrays only, the one at the top among them. -/
theorem Filling.declared_collected (h : Filling declare "$children0" ss count) :
    "$children0" ∈ declaredNames (varStatementsAll (collected declare ss)) ∧
      ∀ id ∈ declaredNames (varStatementsAll (collected declare ss)), IsArray id := by
  have hdeclared : varStatementsAll (collected declare ss)
      = [.init "$children0" (.array [])] :: varStatementsAll ss := by
    rw [collected, List.cons_append, varStatementsAll, varStatementsAll_append]
    exact congrArg _ (List.append_nil _)
  rw [hdeclared]
  constructor
  · rw [mem_declaredNames]
    exact List.mem_cons_self
  · intro id hid
    obtain ⟨bindings, hbindings, hid⟩ := List.mem_flatMap.1 (mem_declaredNames.1 hid)
    obtain ⟨b, hb, rfl⟩ := List.mem_map.1 hid
    obtain rfl | hbindings := List.mem_cons.1 hbindings
    · obtain rfl := List.mem_singleton.1 hb
      exact isArray_root
    · exact h.declared bindings hbindings b hb

theorem printed_declaration {names : List String} (hne : names ≠ [])
    (h : ∀ id ∈ names, IsArray id) : Printed (.vars (names.map .bare)) := by
  obtain ⟨first, others, rfl⟩ := List.exists_cons_of_ne_nil hne
  obtain ⟨hfirst, hothers⟩ := List.forall_mem_cons.1 h
  exact printed_bare hfirst.name fun id hid => (hothers id hid).name

theorem callees_bare (names : List String) : bindingCallees (names.map .bare) = [] := by
  induction names with
  | nil => rfl
  | cons id names ih => exact ih

theorem names_bare (names : List String) : bindingNames (names.map .bare) = names := by
  induction names with
  | nil => rfl
  | cons id names ih => exact congrArg _ ih

/-- The compressed program of markup. -/
theorem Filling.finished_hoist (h : Filling declare "$children0" ss count) :
    Finished (hoist [({} : Settings).renderFunction "$children0" ss]) count := by
  rw [h.hoist_eq]
  obtain hsame | hmerged := mergeDeclarations_cases (collected declare ss)
  · rw [hsame]
    exact h.finished
  · obtain ⟨hroot, harrays⟩ := h.declared_collected
    have hbody : undeclaredAll (collected declare ss) = collected assigned (undeclaredAll ss) := by
      rw [collected, List.cons_append, undeclaredAll, undeclaredAll_append]
      rfl
    have hfilling := h.undeclared
    have hnames := hfilling.names_collected fun _ _ => rfl
    rw [hmerged, hbody]
    refine .of_body (.of_forall ?_) ?_ ?_
    · exact List.forall_mem_cons.2 ⟨printed_declaration (List.ne_nil_of_mem hroot) harrays,
        hfilling.printed_collected printed_assign⟩
    · rw [stmtCallees, Stmt.callees, callees_bare]
      exact hfilling.callees_collected fun _ _ => rfl
    · rw [stmtNames, Stmt.names, names_bare]
      exact List.forall_mem_append.2
        ⟨fun id hid => unreserved_of_isCollector (harrays id hid).collector, hnames⟩

end

end Espalier.Render

namespace Espalier

open Espalier.Script

/-! ## Every mode -/

/-- Text can be indented as the options say. -/
def OutputOptions.Prints (options : OutputOptions) : Prop :=
  options.compressed = true ∨ ∃ count, options.indent = .blanks count

/-- The text of a program is minified, or it is pretty. -/
theorem OutputOptions.Prints.cases {options : OutputOptions} (h : options.Prints)
    (program : Program) :
    options.minify = true ∧ options.print? program = some (minified program) ∨
      options.minify = false ∧ ∃ width, options.print? program = some (pretty width program) := by
  obtain ⟨beautify, minify, indent⟩ := options
  cases minify with
  | true => exact .inl ⟨rfl, rfl⟩
  | false =>
    cases beautify with
    | true => exact .inr ⟨rfl, 2, rfl⟩
    | false =>
      obtain hcompressed | ⟨count, rfl⟩ := h
      · cases hcompressed
      · exact .inr ⟨rfl, count.toNat, rfl⟩

/-- The source of a program that is read back from every style is this program. -/
theorem OutputOptions.Prints.exists_text {options : OutputOptions} (hoptions : options.Prints)
    {program : Program} {count : Nat} (h : Render.Finished program count) :
    ∃ text, options.print? program = some text ∧ parse text = some program := by
  obtain ⟨-, htext⟩ | ⟨-, width, htext⟩ := hoptions.cases program
  · exact ⟨_, htext, h.reads faithful_minified⟩
  · exact ⟨_, htext, h.reads (faithful_pretty width)⟩

/-- What the stages find for markup. -/
theorem Job.finished_markup {template : Template.Node String} (h : template.isMarkup = true) :
    ∃ ss, Render.Filling Render.declare "$children0" ss template.tagCount ∧
      Job.finished { template } = .ok [({} : Render.Settings).renderFunction "$children0" ss] ∧
      Job.sourceHelpers { template } = [] := by
  obtain ⟨found, hgenerate, hparse⟩ :=
    Template.parse_generate (Template.Node.structural_of_isMarkup h)
  obtain ⟨ss, m, hresolves, hfilling⟩ := Template.Node.fills (-1) [] h "$children0" 1
  have hgenerated : Job.generated { template } = .ok found := by rw [Job.generated, hgenerate]; rfl
  have hresolve : Render.resolve {} (template.translate (-1) []).1
      = .ok [({} : Render.Settings).renderFunction "$children0" ss] :=
    Render.resolve_eq_ok_iff.2 ⟨ss, m, hresolves.run, rfl, hfilling.finished.unreserved⟩
  refine ⟨ss, hfilling, ?_, ?_⟩
  · rw [Job.finished, hgenerated]
    show Job.finishing { template } found = _
    rw [Job.finishing, hparse]
    exact congrArg (Except.mapError CompileFault.render) hresolve
  · rw [Job.sourceHelpers, hgenerated]
    show found.helpers = []
    rw [Template.Node.generate] at hgenerate
    split at hgenerate
    case h_1 => cases hgenerate
    case h_2 s hvisit =>
      cases hgenerate
      exact Template.Node.helpers_visit h hvisit

/-- Markup compiles whatever the options, if only text can be indented as they say. Compressed
output is a text of the compressed program and other output one of the finished program; in both,
the factory is applied once for every element, and no reserved name is left. -/
theorem compile_markup {template : Template.Node String} (h : template.isMarkup = true) :
    ∃ rendered compressed, (Job.render { template } {}).result = .ok rendered ∧
      (Job.compress { template } {}).result = .ok compressed ∧
      (∀ program ∈ [rendered, compressed],
        (stmtCallees program).countP ({} : Render.Settings).applies = template.tagCount ∧
          ∀ name ∈ stmtNames program, Render.Unreserved name) ∧
      ∀ options : OutputOptions, options.Prints → ∃ output,
        (Job.compile { template } options [] {}).result = .ok output ∧
          parse output = some (if options.compressed then compressed else rendered) := by
  obtain ⟨ss, hfilling, hrendered, hhelpers⟩ := Job.finished_markup h
  have hcompressed : Job.shortened { template }
      = .ok (hoist [({} : Render.Settings).renderFunction "$children0" ss]) := by
    rw [Job.shortened, hrendered]
    rfl
  have hnothing := Job.faithful_nothing { template }
  refine ⟨_, _, (Job.render_settles hnothing).result.trans hrendered,
    (Job.compress_settles hnothing).result.trans hcompressed, ?_, ?_⟩
  · refine List.forall_mem_cons.2 ⟨?_, List.forall_mem_singleton.2 ?_⟩
    · exact ⟨hfilling.finished.applications, hfilling.finished.unreserved⟩
    · exact ⟨hfilling.finished_hoist.applications, hfilling.finished_hoist.unreserved⟩
  · intro options hoptions
    have hprinted : ∀ {program : Program} {count : Nat}, (if options.compressed then
        Job.shortened { template } else Job.finished { template }) = .ok program →
        Render.Finished program count → ∃ output, Job.printed { template } options = .ok output ∧
          parse output = some program := by
      intro program count hprogram hfinished
      obtain ⟨text, htext, hparse⟩ := hoptions.exists_text hfinished
      refine ⟨text, ?_, hparse⟩
      rw [Job.printed, hprogram]
      show Job.printing { template } options program = _
      rw [Job.printing, htext, hhelpers]
      exact congrArg Except.ok (String.intercalate_singleton ..)
    rw [Job.compile_of_ok rfl, (Job.print_settles options hnothing).result]
    cases hmode : options.compressed with
    | true =>
      rw [hmode] at hprinted
      exact hprinted hcompressed hfilling.finished_hoist
    | false =>
      rw [hmode] at hprinted
      exact hprinted hrendered hfilling.finished

/-- A list with one item, whose text has a quote and a line end in it, minified. -/
theorem compile_markup_list :
    ∃ output program, (Job.compile ⟨.tag 1 "ul" [] [] (some (.mk 1 [.text 2 "say \x22hi\x22\n",
        .tag 3 "li" [] [] (some (.mk 3 [.text 4 "*/"])) none])) none, .render {}, {}⟩
        ⟨false, true, .blanks 0⟩ [] {}).result = .ok output ∧
      parse output = some program ∧
      (stmtCallees program).countP ({} : Render.Settings).applies = 2 := by
  obtain ⟨rendered, compressed, -, -, hprograms, hcompile⟩ := @compile_markup
    (.tag 1 "ul" [] [] (some (.mk 1 [.text 2 "say \x22hi\x22\n",
      .tag 3 "li" [] [] (some (.mk 3 [.text 4 "*/"])) none])) none) (by decide)
  obtain ⟨output, houtput, hparse⟩ := hcompile ⟨false, true, .blanks 0⟩ (.inl rfl)
  exact ⟨output, compressed, houtput, hparse, (hprograms compressed (by simp)).1⟩

end Espalier
