import Espalier.Compile

/-!
# Calls in any order

A job answers calls one after the other and keeps what its stages have found. `generated`,
`finished`, `shortened` and `printed` say what each stage finds for a job, without any memory.
`Faithful` is the invariant of the memory: whatever is kept is what a stage finds for the job, and
a later stage is kept only together with the earlier ones. Every call preserves it and answers as
if nothing had been kept (`Settles`). A program may be found and yet not be printed
(`printed_eq_error_iff`).

Main statement: `reply_after`, about the answer to a call after any sequence of calls.
-/

namespace Espalier.Job

open Espalier.Script

/-! ## Calls -/

/-- A call on a job. -/
inductive Call where
  | generate
  | render
  | compress
  | compile (options : OutputOptions) (settings : List OutputOptions.Setting)
  | helpers

/-- What a call gives back. -/
inductive Reply where
  | intermediate (result : Except CompileFault Template.Intermediate)
  | program (result : Except CompileFault Program)
  | text (result : Except CompileFault String)
  | helpers (found : List Helper)

/-- The answer to a call when `m` is kept from earlier ones. -/
def reply (j : Job) (m : Stages) : Call → Reply
  | .generate => .intermediate (j.generate m).result
  | .render => .program (j.render m).result
  | .compress => .program (j.compress m).result
  | .compile options settings => .text (j.compile options settings m).result
  | .helpers => .helpers m.helpers

/-- What is kept after a call. -/
def after (j : Job) (m : Stages) : Call → Stages
  | .generate => (j.generate m).stages
  | .render => (j.render m).stages
  | .compress => (j.compress m).stages
  | .compile options settings => (j.compile options settings m).stages
  | .helpers => m

/-- What is kept after calls in sequence, from the first call on a job on. -/
def history (j : Job) (calls : List Call) : Stages :=
  calls.foldl j.after {}

/-- Options changed by settings, if there are settings. -/
def accepted (options : OutputOptions) (settings : List OutputOptions.Setting) :
    Except OptionsFault OutputOptions :=
  if settings.isEmpty then .ok options else options.replace settings

/-- The call asks for generated source: it neither asks for the helpers only nor is it refused
because of its options. -/
def Call.generates : Call → Bool
  | .generate | .render | .compress => true
  | .compile options settings => (accepted options settings).isOk
  | .helpers => false

/-- The call for the program that the options print. -/
def Call.forOptions (options : OutputOptions) : Call :=
  if options.compressed then .compress else .render

/-! ## What the stages find -/

/-- The source of the template. -/
def generated (j : Job) : Except CompileFault Template.Intermediate :=
  j.template.generate.mapError fun failure => .generate failure.fault

/-- The finished program of generated source. -/
def finishing (j : Job) (intermediate : Template.Intermediate) : Except CompileFault Program :=
  match parse intermediate.source with
  | none => .error (.unreadable intermediate.source)
  | some program => (j.finish.run program).mapError .render

/-- The finished program. -/
def finished (j : Job) : Except CompileFault Program :=
  j.generated >>= j.finishing

/-- The compressed program. -/
def shortened (j : Job) : Except CompileFault Program :=
  j.finished >>= fun program => .ok (j.compressor.compress program).1

/-- The helpers of the template's source; none when it has no source. -/
def sourceHelpers (j : Job) : List Helper :=
  j.generated.toOption.elim [] (·.helpers)

/-- The text of a program with its helpers. -/
def printing (j : Job) (options : OutputOptions) (program : Program) : Except CompileFault String :=
  match options.print? program with
  | some text => .ok (withHelpers text (j.sourceHelpers.map (·.source)))
  | none => .error .indentation

/-- The printed program with its helpers. -/
def printed (j : Job) (options : OutputOptions) : Except CompileFault String :=
  (if options.compressed then j.shortened else j.finished) >>= j.printing options

/-! ## What is kept -/

/-- Everything that is kept is what a stage finds for the job, and a later stage is kept only
together with the earlier ones. -/
structure Faithful (j : Job) (m : Stages) : Prop where
  intermediate : ∀ found, m.intermediate = some found → j.generated = .ok found
  rendered : ∀ program, m.rendered = some program →
    ∃ found, m.intermediate = some found ∧ j.finishing found = .ok program
  compressed : ∀ short, m.compressed = some short →
    ∃ program, m.rendered = some program ∧ (j.compressor.compress program).1 = short

theorem faithful_nothing (j : Job) : j.Faithful {} where
  intermediate := nofun
  rendered := nofun
  compressed := nofun

/-- A call has found `found`. It has kept only what belongs to the job, the source if there is
one, and its own finding in the way `kept` says. -/
structure Settles {α : Type} (j : Job) (o : Outcome α) (found : Except CompileFault α)
    (kept : α → Stages → Prop) : Prop where
  result : o.result = found
  faithful : j.Faithful o.stages
  intermediate : o.stages.intermediate = j.generated.toOption
  kept : ∀ a, found = .ok a → kept a o.stages

section
variable {j : Job} {m : Stages}

/-! ## The stages -/

theorem Settles.ok {α : Type} {o : Outcome α} {found : Except CompileFault α} {a : α}
    {kept : α → Stages → Prop} (hfound : found = .ok a) (hresult : o.result = .ok a)
    (hfaithful : j.Faithful o.stages) (hintermediate : o.stages.intermediate = j.generated.toOption)
    (hkept : kept a o.stages) : j.Settles o found kept where
  result := hresult.trans hfound.symm
  faithful := hfaithful
  intermediate := hintermediate
  kept := by
    intro b hb
    cases hfound.symm.trans hb
    exact hkept

theorem Settles.error {α : Type} {o : Outcome α} {found : Except CompileFault α}
    {fault : CompileFault} {kept : α → Stages → Prop} (hfound : found = .error fault)
    (hresult : o.result = .error fault) (hfaithful : j.Faithful o.stages)
    (hintermediate : o.stages.intermediate = j.generated.toOption) : j.Settles o found kept where
  result := hresult.trans hfound.symm
  faithful := hfaithful
  intermediate := hintermediate
  kept := by
    intro a ha
    cases hfound.symm.trans ha

/-- One stage after another. -/
theorem Settles.andThen {α β : Type} {o : Outcome α} {found : Except CompileFault α}
    {kept : α → Stages → Prop} {next : α → Stages → Outcome β} {step : α → Except CompileFault β}
    {kept' : β → Stages → Prop} (h : j.Settles o found kept)
    (hnext : ∀ a m, j.Faithful m → m.intermediate = j.generated.toOption → kept a m →
      j.Settles (next a m) (step a) kept') :
    j.Settles (o.andThen next) (found >>= step) kept' := by
  have hresult := h.result
  cases found with
  | error fault =>
    simp only [Outcome.andThen, hresult]
    exact .error rfl rfl h.faithful h.intermediate
  | ok a =>
    have hlater := hnext a o.stages h.faithful h.intermediate (h.kept a rfl)
    simp only [Outcome.andThen, hresult]
    exact ⟨hlater.result, hlater.faithful, hlater.intermediate, hlater.kept⟩

theorem generate_settles (h : j.Faithful m) :
    j.Settles (j.generate m) j.generated fun found m => m.intermediate = some found := by
  cases hkept : m.intermediate with
  | some found =>
    have hgenerated := h.intermediate found hkept
    simp only [generate, hkept]
    exact .ok hgenerated rfl h (by rw [hgenerated]; exact hkept) hkept
  | none =>
    cases hgenerate : j.template.generate with
    | error failure =>
      have hgenerated : j.generated = .error (.generate failure.fault) := by
        rw [generated, hgenerate]
        rfl
      simp only [generate, hkept, hgenerate]
      exact .error hgenerated rfl h (by rw [hgenerated]; exact hkept)
    | ok found =>
      have hgenerated : j.generated = .ok found := by
        rw [generated, hgenerate]
        rfl
      have hfaithful : j.Faithful { m with intermediate := some found } := by
        refine ⟨?_, ?_, h.compressed⟩
        · rintro _ ⟨⟩
          exact hgenerated
        · intro program hprogram
          obtain ⟨_, hsource, -⟩ := h.rendered program hprogram
          cases hkept.symm.trans hsource
      simp only [generate, hkept, hgenerate]
      exact .ok hgenerated rfl hfaithful (by rw [hgenerated]; rfl) rfl

/-- A finished program may be kept beside the source it was made of. -/
theorem Faithful.keepRendered {found : Template.Intermediate} {program : Program}
    (h : j.Faithful m) (hsource : m.intermediate = some found)
    (hprogram : j.finishing found = .ok program) :
    j.Faithful { m with rendered := some program } where
  intermediate := h.intermediate
  rendered := by
    rintro _ ⟨⟩
    exact ⟨found, hsource, hprogram⟩
  compressed := by
    intro short hshort
    -- what had been compressed is the same program, since a source is finished in one way only
    obtain ⟨earlier, hearlier, hcompress⟩ := h.compressed short hshort
    obtain ⟨source, hkept, hfinishing⟩ := h.rendered earlier hearlier
    cases hsource.symm.trans hkept
    cases hprogram.symm.trans hfinishing
    exact ⟨program, rfl, hcompress⟩

theorem render_settles (h : j.Faithful m) :
    j.Settles (j.render m) j.finished fun program m => m.rendered = some program := by
  cases hkept : m.rendered with
  | some program =>
    obtain ⟨found, hfound, hprogram⟩ := h.rendered program hkept
    have hgenerated := h.intermediate found hfound
    have hfinished : j.finished = .ok program := by
      rw [finished, hgenerated]
      exact hprogram
    simp only [render, hkept]
    exact .ok hfinished rfl h (by rw [hgenerated]; exact hfound) hkept
  | none =>
    simp only [render, hkept]
    refine (generate_settles h).andThen fun found m h hintermediate hsource => ?_
    cases hparse : parse found.source with
    | none =>
      have hfinishing : j.finishing found = .error (.unreadable found.source) := by
        simp only [finishing, hparse]
      exact .error hfinishing rfl h hintermediate
    | some parsed =>
      cases hrun : j.finish.run parsed with
      | error fault =>
        have hfinishing : j.finishing found = .error (.render fault) := by
          simp only [finishing, hparse, hrun]
          rfl
        simp only [hrun]
        exact .error hfinishing rfl h hintermediate
      | ok program =>
        have hfinishing : j.finishing found = .ok program := by
          simp only [finishing, hparse, hrun]
          rfl
        simp only [hrun]
        exact .ok hfinishing rfl (h.keepRendered hsource hfinishing) hintermediate rfl

theorem compress_settles (h : j.Faithful m) :
    j.Settles (j.compress m) j.shortened fun _ _ => True := by
  cases hkept : m.compressed with
  | some short =>
    obtain ⟨program, hrendered, hshort⟩ := h.compressed short hkept
    obtain ⟨found, hfound, hprogram⟩ := h.rendered program hrendered
    have hgenerated := h.intermediate found hfound
    have hshortened : j.shortened = .ok short := by
      rw [shortened, finished, hgenerated, ← hshort]
      show j.finishing found >>= _ = _
      rw [hprogram]
      rfl
    simp only [compress, hkept]
    exact .ok hshortened rfl h (by rw [hgenerated]; exact hfound) trivial
  | none =>
    simp only [compress, hkept]
    refine (render_settles h).andThen fun program m h hintermediate hrendered => ?_
    refine .ok rfl rfl ⟨h.intermediate, h.rendered, ?_⟩ hintermediate trivial
    rintro _ ⟨⟩
    exact ⟨program, hrendered, rfl⟩

theorem print_settles (options : OutputOptions) (h : j.Faithful m) :
    j.Settles (j.print options m) (j.printed options) fun _ _ => True := by
  have hprogram : j.Settles (if options.compressed then j.compress m else j.render m)
      (if options.compressed then j.shortened else j.finished) fun _ _ => True := by
    split
    case isTrue => exact compress_settles h
    case isFalse =>
      have hrender := render_settles h
      exact ⟨hrender.result, hrender.faithful, hrender.intermediate, fun _ _ => trivial⟩
  unfold print printed
  refine hprogram.andThen fun program m h hintermediate _ => ?_
  have hhelpers : m.helpers = j.sourceHelpers := by
    rw [Stages.helpers, hintermediate]
    rfl
  rw [hhelpers]
  cases htext : options.print? program with
  | some text =>
    have hprinting : j.printing options program
        = .ok (withHelpers text (j.sourceHelpers.map (·.source))) := by
      rw [printing, htext]
    exact .ok hprinting rfl h hintermediate trivial
  | none =>
    have hprinting : j.printing options program = .error .indentation := by rw [printing, htext]
    exact .error hprinting rfl h hintermediate

/-- What comes last and keeps what it finds leaves nothing else behind. -/
theorem stages_andThen {α β : Type} {o : Outcome α} {next : α → Stages → Outcome β}
    (h : ∀ a m, (next a m).stages = m) : (o.andThen next).stages = o.stages := by
  obtain ⟨fault | a, stages, events⟩ := o
  · rfl
  · exact h a stages

/-- Printing changes nothing of what the stages have kept, whether it fails or not. -/
theorem stages_print (j : Job) (options : OutputOptions) (m : Stages) :
    (j.print options m).stages = j.after m (.forOptions options) := by
  rw [print, stages_andThen, Call.forOptions]
  · split <;> rfl
  · intro program m
    split <;> rfl

theorem compile_of_error {options : OutputOptions} {settings : List OutputOptions.Setting}
    {fault : OptionsFault} (h : accepted options settings = .error fault) (m : Stages) :
    j.compile options settings m = ⟨.error (.options fault), m, []⟩ := by
  unfold accepted at h
  split at h
  case isTrue => cases h
  case isFalse hsettings =>
    rw [compile, if_neg hsettings]
    simp only [h]

theorem compile_of_ok {options changed : OutputOptions} {settings : List OutputOptions.Setting}
    (h : accepted options settings = .ok changed) (m : Stages) :
    j.compile options settings m = j.print changed m := by
  unfold accepted at h
  split at h
  case isTrue hsettings =>
    cases h
    rw [compile, if_pos hsettings]
  case isFalse hsettings =>
    rw [compile, if_neg hsettings]
    simp only [h]

/-! ## One call -/

theorem after_eq_self {call : Call} (h : call.generates = false) : j.after m call = m := by
  cases call with
  | generate | render | compress => cases h
  | helpers => rfl
  | compile options settings =>
    cases haccepted : accepted options settings with
    | ok changed =>
      rw [Call.generates, haccepted] at h
      cases h
    | error fault => rw [after, compile_of_error haccepted]

/-- A call that generates keeps the source if there is one. -/
theorem after_of_generates {call : Call} (hcall : call.generates = true) (h : j.Faithful m) :
    j.Faithful (j.after m call) ∧ (j.after m call).intermediate = j.generated.toOption := by
  cases call with
  | generate => exact ⟨(generate_settles h).faithful, (generate_settles h).intermediate⟩
  | render => exact ⟨(render_settles h).faithful, (render_settles h).intermediate⟩
  | compress => exact ⟨(compress_settles h).faithful, (compress_settles h).intermediate⟩
  | helpers => cases hcall
  | compile options settings =>
    cases haccepted : accepted options settings with
    | error fault =>
      rw [Call.generates, haccepted] at hcall
      cases hcall
    | ok changed =>
      have hprint := print_settles changed h
      rw [after, compile_of_ok haccepted]
      exact ⟨hprint.faithful, hprint.intermediate⟩

/-- Except for the helpers, a call is answered alike whatever is kept. -/
theorem reply_eq_of_faithful {m' : Stages} {call : Call} (hcall : call ≠ .helpers)
    (h : j.Faithful m) (h' : j.Faithful m') : j.reply m call = j.reply m' call := by
  cases call with
  | generate => rw [reply, reply, (generate_settles h).result, (generate_settles h').result]
  | render => rw [reply, reply, (render_settles h).result, (render_settles h').result]
  | compress => rw [reply, reply, (compress_settles h).result, (compress_settles h').result]
  | helpers => exact absurd rfl hcall
  | compile options settings =>
    cases haccepted : accepted options settings with
    | error fault => rw [reply, reply, compile_of_error haccepted, compile_of_error haccepted]
    | ok changed =>
      rw [reply, reply, compile_of_ok haccepted, compile_of_ok haccepted,
        (print_settles changed h).result, (print_settles changed h').result]

end

/-! ## Faults -/

/-- The stages complain about the template only. -/
theorem finished_ne_options (j : Job) (fault : OptionsFault) :
    j.finished ≠ .error (.options fault) := by
  intro h
  cases hgenerated : j.template.generate with
  | error failure =>
    rw [finished, generated, hgenerated] at h
    cases h
  | ok found =>
    rw [finished, generated, hgenerated] at h
    change j.finishing found = _ at h
    unfold finishing at h
    split at h
    case h_1 => cases h
    case h_2 program _ =>
      cases hrun : j.finish.run program with
      | error other =>
        rw [hrun] at h
        cases h
      | ok result =>
        rw [hrun] at h
        cases h

theorem print?_eq_none_iff {options : OutputOptions} {program : Program} :
    options.print? program = none ↔
      options.compressed = false ∧ ∃ amount, options.indent = .fraction amount := by
  obtain ⟨beautify, minify, indent⟩ := options
  cases beautify <;> cases minify <;> cases indent <;>
    simp [OutputOptions.print?, OutputOptions.compressed]

/-- Nothing is printed when a stage fails, or when plain text is to be indented by a fraction. -/
theorem printed_eq_error_iff {j : Job} {options : OutputOptions} {fault : CompileFault} :
    j.printed options = .error fault ↔ j.finished = .error fault ∨
      fault = .indentation ∧ (∃ program, j.finished = .ok program) ∧
        options.compressed = false ∧ ∃ amount, options.indent = .fraction amount := by
  cases hfinished : j.finished with
  | error other =>
    have hshortened : j.shortened = .error other := by
      rw [shortened, hfinished]
      rfl
    rw [printed, hshortened, hfinished, ite_self]
    show (Except.error other : Except CompileFault String) = .error fault ↔ _
    simp
  | ok program =>
    obtain ⟨short, hprinted⟩ : ∃ short, j.printed options = j.printing options short := by
      rw [printed, shortened, hfinished]
      split
      · exact ⟨_, rfl⟩
      · exact ⟨_, rfl⟩
    rw [hprinted, ← @print?_eq_none_iff options short, printing]
    cases options.print? short with
    | none => simp [eq_comm]
    | some text => simp

/-! ## Any sequence of calls -/

/-- What is kept after calls in sequence: the source as soon as one of them has generated it. -/
theorem Faithful.foldl_after {j : Job} (calls : List Call) {m : Stages} (h : j.Faithful m) :
    j.Faithful (calls.foldl j.after m) ∧ (calls.foldl j.after m).intermediate
      = if calls.any (·.generates) then j.generated.toOption else m.intermediate := by
  induction calls generalizing m with
  | nil => exact ⟨h, rfl⟩
  | cons call calls ih =>
    rw [List.foldl_cons, List.any_cons]
    cases hcall : call.generates with
    | false =>
      rw [after_eq_self hcall]
      exact ih h
    | true =>
      obtain ⟨hfaithful, hintermediate⟩ := after_of_generates hcall h
      refine ⟨(ih hfaithful).1, ?_⟩
      rw [(ih hfaithful).2, hintermediate]
      split <;> rfl

/-- After any sequence of calls, a call is answered as the first call on the job would be, the
question for the helpers apart. The helpers are those of the template's source as soon as a call
has generated it, and none before. A call that is refused because of its options changes nothing
that is kept. Any other call to compile keeps what the call for the program that it prints keeps,
also when the program cannot be printed. -/
theorem reply_after (j : Job) (before : List Call) :
    (∀ call, call ≠ .helpers → j.reply (j.history before) call = j.reply {} call) ∧
    j.reply (j.history before) .helpers
      = .helpers (if before.any (·.generates) then j.sourceHelpers else []) ∧
    (∀ options settings fault,
      j.reply (j.history before) (.compile options settings) = .text (.error (.options fault)) →
      j.history (before ++ [.compile options settings]) = j.history before) ∧
    ∀ options settings changed, accepted options settings = .ok changed →
      j.history (before ++ [.compile options settings])
        = j.history (before ++ [.forOptions changed]) := by
  obtain ⟨hfaithful, hintermediate⟩ : j.Faithful (j.history before) ∧ _ :=
    j.faithful_nothing.foldl_after before
  refine ⟨fun call hcall => ?_, ?_, fun options settings fault h => ?_,
    fun options settings changed h => ?_⟩
  · exact reply_eq_of_faithful hcall hfaithful j.faithful_nothing
  · rw [reply, Stages.helpers, history, hintermediate]
    split <;> rfl
  · have hrefused : (Call.compile options settings).generates = false := by
      cases haccepted : accepted options settings with
      | error other => rw [Call.generates, haccepted]; rfl
      | ok changed =>
        rw [reply, compile_of_ok haccepted, (print_settles changed hfaithful).result] at h
        obtain hstages | ⟨hindentation, -⟩ := printed_eq_error_iff.1 (Reply.text.inj h)
        · exact absurd hstages (j.finished_ne_options fault)
        · cases hindentation
    rw [history, List.foldl_append]
    exact after_eq_self hrefused
  · rw [history, history, List.foldl_append, List.foldl_append]
    show j.after _ (.compile options settings) = _
    rw [after, compile_of_ok h]
    exact j.stages_print changed _

end Espalier.Job
