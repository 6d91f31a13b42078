/-!
# Error reports

Every refusal has a searchable code, whose middle part names the stage that refused, and a text.
`Report.compact` is the short form shown to a user.
-/

namespace Espalier

/-- The kinds of refusal. -/
inductive ErrorCode where
  /-- A template node that has no meaning for a render function. -/
  | unsupportedConstruct
  /-- An embedded expression that cannot be read. -/
  | malformedInterpolation
  /-- Generated source that is no program. -/
  | intermediateSyntax
  /-- A reserved call that cannot be resolved. -/
  | unresolvedCall
  /-- Options that contradict each other or do not exist. -/
  | invalidOptions
  /-- Input that describes no template tree. -/
  | invalidTree
  deriving DecidableEq, Repr

/-- The searchable code. -/
def ErrorCode.text : ErrorCode → String
  | .unsupportedConstruct => "J-GEN-001"
  | .malformedInterpolation => "J-GEN-002"
  | .intermediateSyntax => "J-PAR-001"
  | .unresolvedCall => "J-RCT-001"
  | .invalidOptions => "J-CFG-001"
  | .invalidTree => "J-CFG-002"

/-- The stage that refuses. -/
def ErrorCode.category : ErrorCode → String
  | .unsupportedConstruct | .malformedInterpolation => "generator"
  | .intermediateSyntax => "parser"
  | .unresolvedCall => "rectifier"
  | .invalidOptions | .invalidTree => "configuration"

/-- A refusal as it is shown: a text, with a code unless it is of no particular kind. -/
structure Report where
  code : Option ErrorCode
  text : String
  deriving DecidableEq, Repr

/-- The needle occurs in the text. -/
def occursIn (needle : List Char) : List Char → Bool
  | [] => needle.isEmpty
  | c :: cs => needle.isPrefixOf (c :: cs) || occursIn needle cs

/-- The short form: the code in front unless the text already names it, and the category below. -/
def Report.compact (r : Report) : String :=
  match r.code with
  | none => r.text
  | some code =>
    let header :=
      if occursIn code.text.toList r.text.toList then r.text else code.text ++ ": " ++ r.text
    header ++ "\n  Category: " ++ code.category

/-- A template node that is never accepted; the line is shown when it is known. -/
def Report.unsupported (kind : String) (line : Int) : Report :=
  let place := if line = 0 then "" else " (line " ++ toString line ++ ")"
  ⟨some .unsupportedConstruct, kind ++ " nodes are not supported" ++ place⟩

/-- A fault in an embedded expression, with the text below it and a pointer to the offset. -/
def Report.interpolation (message source : String) (position : Int) : Report :=
  ⟨some .malformedInterpolation,
    if source.isEmpty then message
    else
      let margin := "\n   | "
      let indentation := String.ofList (List.replicate position.toNat ' ')
      message ++ margin ++ source ++ margin ++ indentation ++ "^"⟩

end Espalier
