import Espalier.Compress.Hoist
import Espalier.Log
import Espalier.Options
import Espalier.Render.Resolve
import Espalier.Report
import Espalier.Script.Minified
import Espalier.Script.Pretty
import Espalier.Script.Reader
import Espalier.Template.Generate

/-!
# Compilation

A template is compiled in stages: source with reserved calls is generated, read back and turned into
a render function, which may be compressed and is printed together with its helpers. Each stage runs
once for a job; what it found is kept in `Stages` and used by later calls. A stage that fails keeps
nothing and runs again when it is asked for again. Printing is the last step: when it fails, the
stages before it have been kept.
-/

namespace Espalier

open Espalier.Script

/-- Why a job fails. -/
inductive CompileFault where
  | generate (fault : Template.GenerateFault)
  /-- Generated source that is no program. -/
  | unreadable (source : String)
  | render (fault : Render.Fault)
  | options (fault : OptionsFault)
  /-- Text that is to be indented by a fraction. -/
  | indentation
  deriving DecidableEq, Repr

/-- A fault as it is shown. An empty choice and an indentation by a fraction are errors of the
program and have no report. -/
def CompileFault.report? : CompileFault → Option Report
  | .generate (.unsupported kind line) => some (Report.unsupported kind.word line)
  | .generate (.interpolation text fault) =>
    some (Report.interpolation fault.cause.message text fault.position)
  | .generate .emptyChoice => none
  | .unreadable _ => some ⟨some .intermediateSyntax, "Generated source failed to parse"⟩
  | .render fault => some ⟨some .unresolvedCall, fault.message⟩
  | .options fault => some ⟨some .invalidOptions, fault.message⟩
  | .indentation => none

/-- Print a program as the options say. Only plain text is indented by what they ask for, which has
to be a whole number. -/
def OutputOptions.print? (options : OutputOptions) (program : Program) : Option String :=
  if options.minify then some (minified program)
  else if options.beautify then some (pretty 2 program)
  else
    match options.indent with
    | .blanks count => some (pretty count.toNat program)
    | .fraction _ => none

/-- Apply the transformations that are switched on, and tell about them. -/
def CompressionOptions.compress (options : CompressionOptions) (program : Program) :
    Program × List LogEvent :=
  if options.hoistVars then (hoist program, hoistEvents options.warnings program)
  else (program, [])

/-- How generated programs are finished. -/
inductive Finish where
  /-- Build a render function. -/
  | render (settings : Render.Settings)
  /-- Keep the program as it is. -/
  | keep
  deriving DecidableEq, Repr

/-- The finished program. -/
def Finish.run (finish : Finish) (program : Program) : Except Render.Fault Program :=
  match finish with
  | .render settings => Render.resolve settings program
  | .keep => .ok program

/-- A template to compile, and how. -/
structure Job where
  template : Template.Node String
  finish : Finish := .render {}
  compressor : CompressionOptions := {}

/-- What the stages of a job have found so far. -/
structure Stages where
  intermediate : Option Template.Intermediate := none
  rendered : Option Program := none
  compressed : Option Program := none

/-- The helpers of the generated source; none before it is generated. -/
def Stages.helpers (m : Stages) : List Helper :=
  m.intermediate.elim [] (·.helpers)

/-- What a call gives: a result, what is kept for later calls, and what there is to tell. -/
structure Outcome (α : Type) where
  result : Except CompileFault α
  stages : Stages
  events : List LogEvent := []

/-- Go on with a successful result. -/
def Outcome.andThen {α β : Type} (o : Outcome α) (next : α → Stages → Outcome β) : Outcome β :=
  match o.result with
  | .error fault => ⟨.error fault, o.stages, o.events⟩
  | .ok a =>
    let later := next a o.stages
    { later with events := o.events ++ later.events }

namespace Job

/-- Generate source. -/
def generate (j : Job) (m : Stages) : Outcome Template.Intermediate :=
  match m.intermediate with
  | some found => ⟨.ok found, m, []⟩
  | none =>
    match j.template.generate with
    | .error failure =>
      ⟨.error (.generate failure.fault), m, failure.helpers.map .helperNeeded⟩
    | .ok found =>
      ⟨.ok found, { m with intermediate := some found },
        found.helpers.map .helperNeeded ++ [.generated found.fragments found.helpers.length]⟩

/-- Read the generated source and finish the program. -/
def render (j : Job) (m : Stages) : Outcome Program :=
  match m.rendered with
  | some found => ⟨.ok found, m, []⟩
  | none =>
    (j.generate m).andThen fun intermediate m =>
      match parse intermediate.source with
      | none => ⟨.error (.unreadable intermediate.source), m, []⟩
      | some program =>
        match j.finish.run program with
        | .error fault => ⟨.error (.render fault), m, []⟩
        | .ok found => ⟨.ok found, { m with rendered := some found }, [.rendered]⟩

/-- Compress the finished program. -/
def compress (j : Job) (m : Stages) : Outcome Program :=
  match m.compressed with
  | some found => ⟨.ok found, m, []⟩
  | none =>
    (j.render m).andThen fun program m =>
      let (found, events) := j.compressor.compress program
      ⟨.ok found, { m with compressed := some found }, events ++ [.compressed]⟩

/-- Print the finished program, compressed if the options ask for it, with its helpers. -/
def print (j : Job) (options : OutputOptions) (m : Stages) : Outcome String :=
  (if options.compressed then j.compress m else j.render m).andThen fun program m =>
    match options.print? program with
    | some text => ⟨.ok (withHelpers text (m.helpers.map (·.source))), m, []⟩
    | none => ⟨.error .indentation, m, []⟩

/-- Compile under options that settings may change. Options are checked before anything runs. -/
def compile (j : Job) (options : OutputOptions) (settings : List OutputOptions.Setting)
    (m : Stages) : Outcome String :=
  if settings.isEmpty then j.print options m
  else
    match options.replace settings with
    | .error fault => ⟨.error (.options fault), m, []⟩
    | .ok options => j.print options m

end Job

end Espalier
