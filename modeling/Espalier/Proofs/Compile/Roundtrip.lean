import Espalier.Proofs.Compile.Helpers
import Espalier.Proofs.Compile.Markup
import Espalier.Proofs.Compress.Grammar
import Espalier.Proofs.Render.Grammar
import Espalier.Proofs.Script.Acceptance

/-!
# Compiled outputs are read back

What the reader accepts is of the grammar, resolving and merging keep it so, and the text of a
program of the grammar is read back if it is `Printable`. So an output stands for the program it was
printed from and the declarations of its helpers: `compile_reads_back`. The condition cannot be
left out. The printers write a number and the dot of a field behind it without a blank, so that the
dot belongs to the number: `compile_number_field`.
-/

namespace Espalier

open Espalier.Script

/-! ## Programs of the grammar -/

/-- The names that the program is finished with are names of the language. -/
def Finish.Readable : Finish → Prop
  | .render settings => settings.Readable
  | .keep => True

theorem formedAll_run {finish : Finish} (hfinish : finish.Readable) {program result : Program}
    (hformed : FormedAll program) (h : finish.run program = .ok result) : FormedAll result := by
  cases finish with
  | keep =>
    cases h
    exact hformed
  | render settings => exact Render.formedAll_resolve hfinish hformed h

theorem formedAll_compress (options : CompressionOptions) {program : Program}
    (h : FormedAll program) : FormedAll (options.compress program).1 := by
  rw [CompressionOptions.compress]
  split
  case isTrue => exact formedAll_hoist h
  case isFalse => exact h

theorem Job.formedAll_finished {j : Job} (hfinish : j.finish.Readable) {program : Program}
    (h : j.finished = .ok program) : FormedAll program := by
  rw [Job.finished] at h
  cases hgenerated : j.generated with
  | error fault =>
    rw [hgenerated] at h
    cases h
  | ok found =>
    rw [hgenerated] at h
    change j.finishing found = _ at h
    rw [Job.finishing] at h
    cases hparse : parse found.source with
    | none =>
      rw [hparse] at h
      cases h
    | some parsed =>
      rw [hparse] at h
      cases hrun : j.finish.run parsed with
      | error fault =>
        simp only [hrun] at h
        cases h
      | ok result =>
        simp only [hrun] at h
        cases h
        exact formedAll_run hfinish (formedAll_of_parse hparse) hrun

/-! ## Outputs -/

/-- Printed text with helpers behind it is read as the program and the declarations. -/
theorem OutputOptions.Prints.parse_withHelpers {options : OutputOptions} (h : options.Prints)
    {program : Program} (hformed : FormedAll program) (helpers : List Helper) :
    ∃ text, options.print? program = some text ∧ (Printable options.minify program →
      parse (withHelpers text (helpers.map (·.source)))
        = some (program ++ helpers.map (·.declaration))) := by
  have htrails := Helper.trails_helpers helpers
  obtain ⟨hminify, htext⟩ | ⟨hminify, width, htext⟩ := h.cases program
  · refine ⟨_, htext, fun hprintable => ?_⟩
    rw [hminify] at hprintable
    rw [withHelpers_eq]
    exact careful_minified.parse_print_append hformed hprintable htrails
  · refine ⟨_, htext, fun hprintable => ?_⟩
    rw [hminify] at hprintable
    rw [withHelpers_eq]
    exact (careful_pretty width).parse_print_append hformed hprintable htrails

theorem Job.helpers_compile (j : Job) (options : OutputOptions) :
    (j.compile options [] {}).stages.helpers = j.sourceHelpers := by
  rw [Job.compile_of_ok rfl, Stages.helpers,
    (Job.print_settles options j.faithful_nothing).intermediate]
  rfl

/-- A job that compiles without compression compiles under any options, if only text can be indented
as they say. The output is read back as the finished program, or as the compressed one if the
options ask for it, and behind it the declarations of the helpers in order, provided that the
program may be printed as the options say. -/
theorem compile_reads_back {j : Job} (hfinish : j.finish.Readable) {plain : String}
    (h : (j.compile {} [] {}).result = .ok plain) :
    ∃ rendered compressed, (j.render {}).result = .ok rendered ∧
      (j.compress {}).result = .ok compressed ∧ ∀ options : OutputOptions, options.Prints →
        let o := j.compile options [] {}
        let program := if options.compressed then compressed else rendered
        ∃ output, o.result = .ok output ∧ (Printable options.minify program →
          parse output = some (program ++ o.stages.helpers.map (·.declaration))) := by
  have hnothing := j.faithful_nothing
  rw [Job.compile_of_ok rfl, (Job.print_settles {} hnothing).result] at h
  obtain ⟨rendered, hrendered⟩ : ∃ rendered, j.finished = .ok rendered := by
    cases hfinished : j.finished with
    | ok rendered => exact ⟨rendered, rfl⟩
    | error fault =>
      change j.finished >>= _ = _ at h
      rw [hfinished] at h
      cases h
  have hshortened : j.shortened = .ok (j.compressor.compress rendered).1 := by
    rw [Job.shortened, hrendered]
    rfl
  have hformed := Job.formedAll_finished hfinish hrendered
  refine ⟨rendered, _, (Job.render_settles hnothing).result.trans hrendered,
    (Job.compress_settles hnothing).result.trans hshortened, fun options hoptions => ?_⟩
  dsimp only
  rw [Job.helpers_compile, Job.compile_of_ok rfl, (Job.print_settles options hnothing).result,
    Job.printed]
  have hprinting : ∀ {program : Program}, FormedAll program →
      ∃ output, j.printing options program = .ok output ∧ (Printable options.minify program →
        parse output = some (program ++ j.sourceHelpers.map (·.declaration))) := by
    intro program hprogram
    obtain ⟨text, htext, hparse⟩ := hoptions.parse_withHelpers hprogram j.sourceHelpers
    exact ⟨_, by rw [Job.printing, htext], hparse⟩
  split
  case isTrue =>
    rw [hshortened]
    exact hprinting (formedAll_compress _ hformed)
  case isFalse =>
    rw [hrendered]
    exact hprinting hformed

/-- The stages of a job whose template generates the source. -/
theorem Job.finished_of_parse {template : Template.Node String} {source : String}
    {helpers : List Helper} {parsed program : Program}
    (hgenerate : template.generate.toOption.map (fun found => (found.source, found.helpers))
      = some (source, helpers))
    (hparse : parse source = some parsed) (hresolve : Render.resolve {} parsed = .ok program) :
    Job.finished { template } = .ok program ∧ Job.sourceHelpers { template } = helpers := by
  obtain ⟨found, hfound, hparts⟩ := Option.map_eq_some_iff.1 hgenerate
  obtain ⟨rfl, rfl⟩ := Prod.mk.inj hparts
  have hgenerated : Job.generated { template } = .ok found := by
    cases hresult : template.generate with
    | error failure =>
      rw [hresult] at hfound
      cases hfound
    | ok intermediate =>
      rw [hresult] at hfound
      cases hfound
      rw [Job.generated, hresult]
      rfl
  constructor
  · rw [Job.finished, hgenerated]
    change Job.finishing { template } found = _
    rw [Job.finishing, hparse]
    exact congrArg (Except.mapError CompileFault.render) hresolve
  · rw [Job.sourceHelpers, hgenerated]
    rfl

theorem Job.compile_of_finished {j : Job} {program : Program} (h : j.finished = .ok program) :
    (j.compile {} [] {}).result
      = .ok (withHelpers (pretty 4 program) (j.sourceHelpers.map (·.source))) := by
  rw [Job.compile_of_ok rfl, (Job.print_settles {} j.faithful_nothing).result]
  show j.finished >>= _ = _
  rw [h]
  rfl

/-- Output of the items of a collection. -/
def listing : Template.Node String :=
  .each 1 "xs" "x" none (some (.mk 1 [.code (.mk 1 "x" true true none)])) none

/-- The program of the render function that outputs the items. -/
def listingProgram : Program :=
  [({} : Render.Settings).renderFunction "$children0"
    [Render.push "$children0" (.call (.name Marker.iterate) [.name "xs", .func none ["x"]
      (Render.collectingBody "$children1" [Render.push "$children1" (.name "x")])])]]

theorem parse_listing : parse "ǃmap＿(xs,function(x)\x7b\nǃtext＿(x);\n\x7d);\n"
    = some [.expr (.call (.name Marker.iterate) [.name "xs", .func none ["x"]
        [.expr (.call (.name Marker.text) [.name "x"])]])] := by
  have htokens : tokenize "ǃmap＿(xs,function(x)\x7b\nǃtext＿(x);\n\x7d);\n"
      = [.name "ǃmap＿", .mark .lparen, .name "xs", .mark .comma, .keyword .function, .mark .lparen,
          .name "x", .mark .rparen, .mark .lbrace].map (⟨·, false, none⟩)
        ++ ⟨.name "ǃtext＿", true, none⟩
        :: [.mark .lparen, .name "x", .mark .rparen, .mark .semi].map (⟨·, false, none⟩)
        ++ ⟨.mark .rbrace, true, none⟩
        :: [.mark .rparen, .mark .semi].map (⟨·, false, none⟩)
        ++ [⟨.eof, true, none⟩] := by
    decide +kernel
  rw [parse, htokens]
  rfl

theorem Job.finished_listing : Job.finished { template := listing } = .ok listingProgram ∧
    Job.sourceHelpers { template := listing } = [.iterate] := by
  have hgenerate : listing.generate.toOption.map (fun found => (found.source, found.helpers))
      = some ("ǃmap＿(xs,function(x)\x7b\nǃtext＿(x);\n\x7d);\n", [.iterate]) := by
    decide +kernel
  exact Job.finished_of_parse hgenerate parse_listing rfl

/-- The output of the items is read back, in every mode, as the render function and the helper that
it calls. -/
theorem compile_reads_back_listing : ∃ plain beautified minified,
    (Job.compile { template := listing } {} [] {}).result = .ok plain ∧
      (Job.compile { template := listing } { beautify := true } [] {}).result = .ok beautified ∧
      (Job.compile { template := listing } { minify := true } [] {}).result = .ok minified ∧
      ∀ output ∈ [plain, beautified, minified],
        parse output = some (listingProgram ++ [Helper.iterate.declaration]) := by
  obtain ⟨hfinished, hhelpers⟩ := Job.finished_listing
  obtain ⟨rendered, compressed, hrendered, hcompressed, hall⟩ :=
    compile_reads_back (j := { template := listing }) Render.readable_default
      (Job.compile_of_finished hfinished)
  have hnothing := Job.faithful_nothing { template := listing }
  have hsame : (Except.ok rendered : Except CompileFault Program) = .ok listingProgram :=
    hrendered.symm.trans ((Job.render_settles hnothing).result.trans hfinished)
  have hshort : (Except.ok compressed : Except CompileFault Program) = .ok listingProgram := by
    rw [← hcompressed, (Job.compress_settles hnothing).result, Job.shortened, hfinished]
    rfl
  cases hsame
  cases hshort
  have hread : ∀ options : OutputOptions, options.Prints → ∃ output,
      (Job.compile { template := listing } options [] {}).result = .ok output ∧
        parse output = some (listingProgram ++ [Helper.iterate.declaration]) := by
    intro options hoptions
    have hprintable : ∀ minified, Printable minified listingProgram := by decide +kernel
    obtain ⟨output, houtput, hread⟩ := hall options hoptions
    refine ⟨output, houtput, (hread ?_).trans ?_⟩
    · rw [ite_self]
      exact hprintable _
    · rw [ite_self, Job.helpers_compile, hhelpers]
      rfl
  obtain ⟨plain, hplain, hread₁⟩ := hread {} (.inr ⟨4, rfl⟩)
  obtain ⟨beautified, hbeautified, hread₂⟩ := hread { beautify := true } (.inl rfl)
  obtain ⟨minified, hminified, hread₃⟩ := hread { minify := true } (.inl rfl)
  refine ⟨plain, beautified, minified, hplain, hbeautified, hminified, ?_⟩
  simp only [List.forall_mem_cons, hread₁, hread₂, hread₃, true_and]
  exact List.forall_mem_nil _

/-! ## A number before a field -/

/-- Buffered code that calls a method of a number. -/
def numberField : Template.Node String :=
  .code (.mk 1 "5 .toFixed(2)" true true none)

/-- The program of the render function that outputs the call. -/
def numberFieldProgram : Program :=
  [({} : Render.Settings).renderFunction "$children0"
    [Render.push "$children0" (.call (.dot (.number "5") "toFixed") [.number "2"])]]

theorem parse_numberField : parse "ǃtext＿(5 .toFixed(2));\n"
    = some [.expr (.call (.name "ǃtext＿")
      [.call (.dot (.number "5") "toFixed") [.number "2"]])] := by
  have htokens : tokenize "ǃtext＿(5 .toFixed(2));\n"
      = [.name "ǃtext＿", .mark .lparen, .number "5", .mark .dot, .name "toFixed", .mark .lparen,
        .number "2", .mark .rparen, .mark .rparen, .mark .semi].map (⟨·, false, none⟩)
        ++ [⟨.eof, true, none⟩] := by
    decide +kernel
  rw [parse, htokens]
  rfl

/-- What the stages find for the call. -/
theorem Job.finished_numberField :
    Job.finished { template := numberField } = .ok numberFieldProgram ∧
      Job.sourceHelpers { template := numberField } = [] := by
  have hgenerate : numberField.generate.toOption.map (fun found => (found.source, found.helpers))
      = some ("ǃtext＿(5 .toFixed(2));\n", []) := by
    decide +kernel
  exact Job.finished_of_parse hgenerate parse_numberField rfl

/-- Without the blank between them, the number takes the dot of the field, and the output is no
program. -/
theorem compile_number_field : ∃ program output,
    (Job.render { template := numberField } {}).result = .ok program ∧
      (Job.compile { template := numberField } {} [] {}).result = .ok output ∧
      parse output = none := by
  obtain ⟨hfinished, hhelpers⟩ := Job.finished_numberField
  have hnothing := Job.faithful_nothing { template := numberField }
  have hprint : pretty 4 numberFieldProgram
      = "function render(block) \x7b\n    var $children0 = [];\n"
        ++ "    $children0.push(5.toFixed(2));\n"
        ++ "    return $children0.length === 1 ? $children0[0] : $children0;\n\x7d\n" := by
    decide +kernel
  have hcompile : (Job.compile { template := numberField } {} [] {}).result = _ :=
    Job.compile_of_finished hfinished
  rw [hhelpers] at hcompile
  refine ⟨_, pretty 4 numberFieldProgram,
    (Job.render_settles hnothing).result.trans hfinished, ?_, ?_⟩
  · exact hcompile.trans (congrArg _ (String.intercalate_singleton ..))
  · rw [hprint]
    exact Option.isNone_iff_eq_none.1 (by decide +kernel)

end Espalier
